import Subspace.ProofOfSpace.Tables
import Subspace.ProofOfSpace.TableSpec

/-!
# The trees behind the prover's proofs

`find_proof` follows, from a value of table `7`, the parent positions down to
64 positions of table `1`. This module shows that these are the leaves of a
tree the verifier accepts: recomputing the levels from the `x`s with
`compute_f1` and `compute_fn` gives back the table-`7` value, and every pair on
the way is in the matching relation.

1. The levels of the verifier split over the halves of a tree
   (`plainLevels_append`, `matchesAlong_append`).
2. `subtree_levels`: below every value of the table of height `h` lie `2 ^ h`
   positions of table `1`, whose levels give that value with every pair
   matching; the induction is on the height, with `mem_createResults` at each
   step.
3. `find_proof_trees_match`: every proof `find_proof` yields is the packing of
   such `x`s, for a table-`7` value whose first `K` bits are the challenge's.
-/

namespace Subspace.ProofOfSpace

/-! ## The levels of a tree -/

section Levels

variable {hashes : PosHashes}

theorem pairs_append {α : Type} : ∀ {left : List α}, left.length % 2 = 0 → ∀ right : List α,
    pairs (left ++ right) = pairs left ++ pairs right
  | [], _, right => by simp [pairs]
  | [_], odd, _ => by simp at odd
  | a :: b :: rest, even, right => by
    have restEven : rest.length % 2 = 0 := by simp at even; omega
    simp only [List.cons_append, pairs, pairs_append restEven right]

theorem length_pairs {α : Type} : ∀ l : List α, (pairs l).length = l.length / 2
  | [] => by simp [pairs]
  | [_] => by simp [pairs]
  | a :: b :: rest => by
    simp only [pairs, List.length_cons, length_pairs rest]
    omega

theorem length_nextLevel (tableNumber : ℕ) (ysAndMetadata : List (ℕ × ℕ)) :
    (nextLevel hashes tableNumber ysAndMetadata).length = ysAndMetadata.length / 2 := by
  simp [nextLevel, length_pairs]

theorem nextLevel_append (tableNumber : ℕ) {left : List (ℕ × ℕ)} (even : left.length % 2 = 0)
    (right : List (ℕ × ℕ)) :
    nextLevel hashes tableNumber (left ++ right) =
      nextLevel hashes tableNumber left ++ nextLevel hashes tableNumber right := by
  simp [nextLevel, pairs_append even]

/-- The last level of a tree of two values. -/
theorem nextLevel_pair (tableNumber : ℕ) (left right : ℕ × ℕ) :
    nextLevel hashes tableNumber [left, right] =
      [hashes.computeFn tableNumber left.1 left.2 right.2] := rfl

theorem pairsMatch_append {left : List (ℕ × ℕ)} (even : left.length % 2 = 0)
    (right : List (ℕ × ℕ)) :
    PairsMatch (left ++ right) ↔ PairsMatch left ∧ PairsMatch right := by
  simp only [PairsMatch, pairs_append even, List.forall_mem_append]

theorem pairsMatch_pair (left right : ℕ × ℕ) :
    PairsMatch [left, right] ↔ hasMatch left.1 right.1 = true := by
  simp [PairsMatch, pairs]

/-- `2 ^ (n + 1)` values halve into `2 ^ n`, an even number. -/
theorem even_of_pow_dvd {n length : ℕ} (dvd : 2 ^ (n + 1) ∣ length) :
    length % 2 = 0 ∧ 2 ^ n ∣ length / 2 := by
  rw [pow_succ'] at dvd
  exact ⟨Nat.mod_eq_zero_of_dvd (dvd_trans (dvd_mul_right 2 (2 ^ n)) dvd),
    Nat.dvd_div_of_mul_dvd dvd⟩

/-- Levels over two trees side by side are the levels of each, when the left
tree is whole at every level. -/
theorem plainLevels_append (tableNumbers : List ℕ) {left : List (ℕ × ℕ)}
    (whole : 2 ^ tableNumbers.length ∣ left.length) (right : List (ℕ × ℕ)) :
    plainLevels hashes tableNumbers (left ++ right) =
      plainLevels hashes tableNumbers left ++ plainLevels hashes tableNumbers right := by
  induction tableNumbers generalizing left right with
  | nil => rfl
  | cons tableNumber tableNumbers ih =>
    obtain ⟨even, half⟩ := even_of_pow_dvd whole
    have next : 2 ^ tableNumbers.length ∣ (nextLevel hashes tableNumber left).length := by
      rwa [length_nextLevel]
    show plainLevels hashes tableNumbers (nextLevel hashes tableNumber (left ++ right)) =
      plainLevels hashes tableNumbers (nextLevel hashes tableNumber left) ++
        plainLevels hashes tableNumbers (nextLevel hashes tableNumber right)
    rw [nextLevel_append tableNumber even, ih next]

theorem matchesAlong_append (tableNumbers : List ℕ) {left : List (ℕ × ℕ)}
    (whole : 2 ^ tableNumbers.length ∣ left.length) (right : List (ℕ × ℕ)) :
    MatchesAlong hashes tableNumbers (left ++ right) ↔
      MatchesAlong hashes tableNumbers left ∧ MatchesAlong hashes tableNumbers right := by
  induction tableNumbers generalizing left right with
  | nil => simp [MatchesAlong]
  | cons tableNumber tableNumbers ih =>
    obtain ⟨even, half⟩ := even_of_pow_dvd whole
    have next : 2 ^ tableNumbers.length ∣ (nextLevel hashes tableNumber left).length := by
      rwa [length_nextLevel]
    simp only [MatchesAlong, pairsMatch_append even, nextLevel_append tableNumber even, ih next]
    tauto

theorem plainLevels_append_singleton (tableNumbers : List ℕ) (tableNumber : ℕ)
    (ysAndMetadata : List (ℕ × ℕ)) :
    plainLevels hashes (tableNumbers ++ [tableNumber]) ysAndMetadata =
      nextLevel hashes tableNumber (plainLevels hashes tableNumbers ysAndMetadata) := by
  simp [plainLevels]

/-- The pairs of one more level match when those of the levels so far do and
the pairs of the last value do. -/
theorem matchesAlong_append_singleton (tableNumbers : List ℕ) (tableNumber : ℕ)
    (ysAndMetadata : List (ℕ × ℕ)) :
    MatchesAlong hashes (tableNumbers ++ [tableNumber]) ysAndMetadata ↔
      MatchesAlong hashes tableNumbers ysAndMetadata ∧
        PairsMatch (plainLevels hashes tableNumbers ysAndMetadata) := by
  induction tableNumbers generalizing ysAndMetadata with
  | nil => simp [MatchesAlong, plainLevels]
  | cons first tableNumbers ih =>
    simp only [List.cons_append, MatchesAlong, ih]
    show _ ↔ _ ∧ PairsMatch (plainLevels hashes tableNumbers (nextLevel hashes first ysAndMetadata))
    tauto

end Levels

/-! ## The tables of `TablesGeneric::create` -/

section Prover

variable (hashes : PosHashes) (k : ℕ)

/-- The table of height `h` that `TablesGeneric::create` builds, which is
table `h + 1`. -/
def tableAt : ℕ → Table
  | 0 => Table.createFirst hashes k
  | h + 1 => Table.create hashes k (h + 2) (tableAt h)

/-- The `y`s of the table of height `h`, by position. -/
def ysAt : ℕ → List ℕ
  | 0 => (List.range (2 ^ k)).map (computeF1 hashes k)
  | h + 1 => (Table.createResults hashes (h + 2) (tableAt hashes k h)).map (·.1)

/-- The values the verifier starts from: each `x` with its `f1`, and itself as
metadata. -/
def leaves (xs : List ℕ) : List (ℕ × ℕ) :=
  xs.map fun x => (computeF1 hashes k x, x)

/-- The positions `find_proof_internal` reaches from positions of the table of
height `h`, one table after the other, down to table `1`. -/
def positionsBelow : ℕ → List ℕ → Option (List ℕ)
  | 0, positions => some positions
  | h + 1, positions =>
    (Tables.parentPositions (tableAt hashes k (h + 1)).prune positions).bind (positionsBelow h)

theorem buckets_tableAt (h : ℕ) :
    (tableAt hashes k h).buckets = sortBuckets (groupByBuckets k (ysAt hashes k h)) := by
  cases h <;> rfl

theorem create_eq : Tables.create hashes k =
    { table2 := (tableAt hashes k 1).prune
      table3 := (tableAt hashes k 2).prune
      table4 := (tableAt hashes k 3).prune
      table5 := (tableAt hashes k 4).prune
      table6 := (tableAt hashes k 5).prune
      table7 := tableAt hashes k 6 } := rfl

theorem proofXs_create (table6ProofTargets : ℕ × ℕ) :
    (Tables.create hashes k).proofXs table6ProofTargets =
      positionsBelow hashes k 5 [table6ProofTargets.1, table6ProofTargets.2] := by
  simp [Tables.proofXs, create_eq, positionsBelow]

/-- The table of height `h + 1`: its entries are the results of
`Table::create` over the table below. -/
theorem tableAt_succ (h : ℕ) :
    tableAt hashes k (h + 1) =
      Table.other ((Table.createResults hashes (h + 2) (tableAt hashes k h)).map (·.2.1))
        ((Table.createResults hashes (h + 2) (tableAt hashes k h)).map (·.2.2))
        (sortBuckets (groupByBuckets k (ysAt hashes k (h + 1)))) := rfl

variable {hashes k}

theorem parentPositions_append (positions : List (ℕ × ℕ)) (left right : List ℕ) :
    Tables.parentPositions positions (left ++ right) =
      (Tables.parentPositions positions left).bind fun below =>
        (Tables.parentPositions positions right).map (below ++ ·) := by
  induction left with
  | nil =>
    simp only [List.nil_append, Tables.parentPositions, Option.bind_some]
    cases Tables.parentPositions positions right <;> rfl
  | cons position rest ih =>
    simp only [List.cons_append, Tables.parentPositions, ih]
    cases positions[position]? <;> cases Tables.parentPositions positions rest <;>
      cases Tables.parentPositions positions right <;> rfl

theorem positionsBelow_append (h : ℕ) (left right : List ℕ) :
    positionsBelow hashes k h (left ++ right) =
      (positionsBelow hashes k h left).bind fun below =>
        (positionsBelow hashes k h right).map (below ++ ·) := by
  induction h generalizing left right with
  | zero => rfl
  | succ h ih =>
    simp only [positionsBelow, parentPositions_append]
    cases Tables.parentPositions (tableAt hashes k (h + 1)).prune left with
    | none => rfl
    | some leftBelow =>
      cases Tables.parentPositions (tableAt hashes k (h + 1)).prune right with
      | none =>
        simp only [Option.bind_some, Option.map_none, Option.bind_none]
        cases positionsBelow hashes k h leftBelow <;> rfl
      | some rightBelow => simp only [Option.bind_some, Option.map_some, ih]

theorem parentPositions_singleton (positions : List (ℕ × ℕ)) (p : ℕ) :
    Tables.parentPositions positions [p] = positions[p]?.map fun pair => [pair.1, pair.2] := by
  simp only [Tables.parentPositions]
  cases positions[p]? <;> rfl

/-- Below one position: the positions below its two parents, left then right. -/
theorem positionsBelow_singleton (h p : ℕ) :
    positionsBelow hashes k (h + 1) [p] =
      ((tableAt hashes k (h + 1)).prune[p]?).bind fun pair =>
        (positionsBelow hashes k h [pair.1]).bind fun left =>
          (positionsBelow hashes k h [pair.2]).map (left ++ ·) := by
  rw [positionsBelow, parentPositions_singleton]
  cases (tableAt hashes k (h + 1)).prune[p]? with
  | none => rfl
  | some pair =>
    simp only [Option.map_some, Option.bind_some]
    rw [show [pair.1, pair.2] = [pair.1] ++ [pair.2] from rfl, positionsBelow_append]

theorem leaves_append (xs xs' : List ℕ) :
    leaves hashes k (xs ++ xs') = leaves hashes k xs ++ leaves hashes k xs' :=
  List.map_append

theorem length_flatMap_le {α β : Type} (l : List α) (f : α → List β) {n : ℕ}
    (bound : ∀ a ∈ l, (f a).length ≤ n) : (l.flatMap f).length ≤ l.length * n := by
  induction l with
  | nil => simp
  | cons a l ih =>
    rw [List.flatMap_cons, List.length_append, List.length_cons, Nat.succ_mul]
    have here := bound a List.mem_cons_self
    have later := ih fun b member => bound b (List.mem_cons_of_mem a member)
    omega

/-- Each pair of adjacent buckets keeps at most `REDUCED_MATCHES_COUNT` matches. -/
theorem length_createResults_le (tableNumber : ℕ) (parentTable : Table) :
    (Table.createResults hashes tableNumber parentTable).length ≤
      (parentTable.buckets.length - 1) * reducedMatchesCount := by
  unfold Table.createResults
  calc _ ≤ ((parentTable.buckets.zip parentTable.buckets.tail).zipIdx).length * reducedMatchesCount :=
        length_flatMap_le _ _ fun window _ => by simp
    _ = (parentTable.buckets.length - 1) * reducedMatchesCount := by simp

theorem numBuckets_le (small : k ≤ 25) : numBuckets k ≤ numBuckets 25 := by
  unfold numBuckets ySizeBits
  apply Nat.div_le_div_right
  have : 2 ^ (k + paramExt) ≤ 2 ^ (25 + paramExt) := Nat.pow_le_pow_right (by decide) (by omega)
  omega

/-- Every table fits positions in a `u32` below the sentinel, for `K ≤ 25`. -/
theorem length_ysAt_le (small : k ≤ 25) (h : ℕ) : (ysAt hashes k h).length ≤ sentinel := by
  cases h with
  | zero =>
    simp only [ysAt, List.length_map, List.length_range]
    calc 2 ^ k ≤ 2 ^ 25 := Nat.pow_le_pow_right (by decide) small
      _ ≤ sentinel := by decide
  | succ h =>
    simp only [ysAt, List.length_map]
    calc _ ≤ ((tableAt hashes k h).buckets.length - 1) * reducedMatchesCount :=
          length_createResults_le _ _
      _ = (numBuckets k - 1) * reducedMatchesCount := by
          simp [buckets_tableAt, sortBuckets, groupByBuckets]
      _ ≤ (numBuckets 25 - 1) * reducedMatchesCount :=
          Nat.mul_le_mul_right _ (Nat.sub_le_sub_right (numBuckets_le small) 1)
      _ ≤ sentinel := by decide

theorem prune_tableAt_succ (h p : ℕ) :
    (tableAt hashes k (h + 1)).prune[p]? =
      ((Table.createResults hashes (h + 2) (tableAt hashes k h))[p]?).map (·.2.1) := by
  rw [tableAt_succ]
  simp [Table.prune]

theorem position_tableAt_succ (h p : ℕ) :
    (tableAt hashes k (h + 1)).position p = (tableAt hashes k (h + 1)).prune[p]? := by
  rw [tableAt_succ]
  rfl

/-- Below each value of the table of height `h` lie `2 ^ h` positions of
table `1`, which are `x`s of `K` bits; the verifier's levels over them give
the value back, with its metadata, and every pair on the way matches. The
induction is on the height: a value is `compute_fn` of two matching values
of the table below (`mem_createResults`), each the root of its half. -/
theorem subtree_levels (small : k ≤ 25) (h : ℕ) {p y : ℕ} (atP : (ysAt hashes k h)[p]? = some y) :
    ∃ xs, positionsBelow hashes k h [p] = some xs ∧ xs.length = 2 ^ h ∧ (∀ x ∈ xs, x < 2 ^ k) ∧
      plainLevels hashes (List.range' 2 h) (leaves hashes k xs) =
        [(y, (tableAt hashes k h).metadata p)] ∧
      MatchesAlong hashes (List.range' 2 h) (leaves hashes k xs) := by
  induction h generalizing p y with
  | zero =>
    -- a value of table `1` is `f1` of its position, the `x`
    simp only [ysAt, List.getElem?_map, Option.map_eq_some_iff] at atP
    obtain ⟨x, atX, rfl⟩ := atP
    obtain ⟨bound, isX⟩ := List.getElem?_eq_some_iff.mp atX
    rw [List.getElem_range] at isX
    rw [List.length_range] at bound
    subst isX
    exact ⟨[p], rfl, rfl, by simpa using bound, rfl, trivial⟩
  | succ h ih =>
    simp only [ysAt, List.getElem?_map, Option.map_eq_some_iff] at atP
    obtain ⟨result, atResult, rfl⟩ := atP
    obtain ⟨leftPosition, rightPosition, leftY, rightY, parents, atLeft, atRight, related, computed⟩ :=
      mem_createResults hashes (h + 2) (buckets_tableAt hashes k h) (length_ysAt_le small h)
        (List.mem_of_getElem? atResult)
    obtain ⟨leftXs, leftBelow, leftLength, leftBound, leftLevels, leftMatch⟩ := ih atLeft
    obtain ⟨rightXs, rightBelow, rightLength, rightBound, rightLevels, rightMatch⟩ := ih atRight
    have pruned : (tableAt hashes k (h + 1)).prune[p]? = some (leftPosition, rightPosition) := by
      rw [prune_tableAt_succ, atResult, Option.map_some, parents]
    have metadata : (tableAt hashes k (h + 1)).metadata p = result.2.2 := by
      rw [tableAt_succ]
      simp [Table.metadata, List.getD_eq_getElem?_getD, atResult]
    have whole : 2 ^ (List.range' 2 h).length ∣ (leaves hashes k leftXs).length := by
      simp [leaves, leftLength]
    have tables : List.range' 2 (h + 1) = List.range' 2 h ++ [h + 2] := by
      rw [List.range'_concat, Nat.one_mul, Nat.add_comm]
    have below : plainLevels hashes (List.range' 2 h) (leaves hashes k (leftXs ++ rightXs)) =
        [(leftY, (tableAt hashes k h).metadata leftPosition),
          (rightY, (tableAt hashes k h).metadata rightPosition)] := by
      rw [leaves_append, plainLevels_append _ whole, leftLevels, rightLevels]
      rfl
    refine ⟨leftXs ++ rightXs, ?_, ?_, ?_, ?_, ?_⟩
    · rw [positionsBelow_singleton, pruned]
      simp [leftBelow, rightBelow]
    · rw [List.length_append, leftLength, rightLength, pow_succ]
      omega
    · intro x member
      rcases List.mem_append.mp member with inLeft | inRight
      · exact leftBound x inLeft
      · exact rightBound x inRight
    · rw [tables, plainLevels_append_singleton, below, nextLevel_pair, metadata, ← computed]
    · rw [tables, matchesAlong_append_singleton, below, pairsMatch_pair, leaves_append,
        matchesAlong_append _ whole]
      exact ⟨⟨leftMatch, rightMatch⟩, hasMatch_of_findMatchesRelation related⟩

/-- A proof `find_proof_internal` makes from the position of a table-`7`
value is the packing of the positions below it. -/
theorem bind_findProofInternal_create (p : ℕ) :
    ((tableAt hashes k 6).position p).bind ((Tables.create hashes k).findProofInternal k) =
      (positionsBelow hashes k 6 [p]).map (Tables.writeProof k) := by
  rw [position_tableAt_succ, positionsBelow_singleton]
  cases (tableAt hashes k 6).prune[p]? with
  | none => rfl
  | some pair =>
    simp only [Option.bind_some, Tables.findProofInternal, proofXs_create]
    rw [show [pair.1, pair.2] = [pair.1] ++ [pair.2] from rfl, positionsBelow_append]

/-- Every proof `find_proof` yields is the packing of 64 `x`s of `K` bits
whose tree, recomputed level by level as the verifier does, has every pair in
the matching relation and a root whose first `K` bits are the challenge's;
this for `K ≤ 25`, where every position fits in a `u32`. -/
theorem find_proof_trees_match (small : k ≤ 25) (firstChallengeBytes : List ℕ) :
    ∀ proof ∈ (Tables.create hashes k).findProof k firstChallengeBytes,
      ∃ xs, proof = some (Tables.writeProof k xs) ∧ xs.length = 64 ∧ (∀ x ∈ xs, x < 2 ^ k) ∧
        MatchesAlong hashes [2, 3, 4, 5, 6, 7] (leaves hashes k xs) ∧
        ∃ y metadata,
          (plainLevels hashes [2, 3, 4, 5, 6, 7] (leaves hashes k xs)).head? = some (y, metadata) ∧
          firstKBits y = fromBeBytes firstChallengeBytes / 2 ^ (32 - k) := by
  intro proof member
  simp only [Tables.findProof] at member
  obtain ⟨bucket, inRange, found⟩ := List.mem_flatMap.mp member
  obtain ⟨entry, kept, rfl⟩ := List.mem_map.mp found
  obtain ⟨before, firstBits⟩ := List.mem_filter.mp kept
  -- the bucket is one of table 7's, built from the `y`s of height 6
  have inTable : bucket ∈ (tableAt hashes k 6).buckets :=
    List.mem_of_mem_drop (List.mem_of_mem_take inRange)
  rw [buckets_tableAt, sortBuckets_groupByBuckets k _ (length_ysAt_le small 6)] at inTable
  obtain ⟨i, -, rfl⟩ := List.mem_map.mp inTable
  have entries : bucketEntries (padBucket (tableEntries (ysAt hashes k 6) i)) =
      tableEntries (ysAt hashes k 6) i :=
    bucketEntries_padBucket (tableEntries_not_sentinel (length_ysAt_le small 6))
  unfold bucketEntries at entries
  rw [entries] at before
  obtain ⟨xs, below, length, bound, levels, matched⟩ :=
    subtree_levels small 6 (mem_tableEntries before).1
  have root : (plainLevels hashes [2, 3, 4, 5, 6, 7] (leaves hashes k xs)).head? =
      some (entry.2, (tableAt hashes k 6).metadata entry.1) := by
    rw [show [2, 3, 4, 5, 6, 7] = List.range' 2 6 from rfl, levels]
    rfl
  refine ⟨xs, ?_, length, bound, matched, entry.2, _, root, by simpa using firstBits⟩
  rw [show (Tables.create hashes k).table7 = tableAt hashes k 6 from rfl,
    bind_findProofInternal_create, below]
  rfl

end Prover

end Subspace.ProofOfSpace
