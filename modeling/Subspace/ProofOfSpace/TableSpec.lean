import Subspace.ProofOfSpace.Table
import Subspace.ProofOfSpace.VerifierSpec
import Subspace.Lib.Runs

/-!
# What the proof-of-space tables hold

The `Rmap`, the buckets and the matching of `chiapos/table.rs`, against what
they are for.

1. `rmap_get_eq_take_run`: an `Rmap` filled within its contract (the
   additions of one `r` consecutive) returns for each `r` the positions added
   with it, in order, cut to their number modulo `2 ^ 8`: the `u8` count of an
   entry wraps, so a run of 256 or more is read back short.
2. `group_by_buckets_keeps_first_entries`: bucket `i` holds the first
   `REDUCED_BUCKET_SIZE` entries whose `y` lies in it, in position order,
   then sentinels; `sort_buckets` then orders them by `(y, position)`
   (`sortBuckets_groupByBuckets`).
3. `verify_only_accepts_pairs_of_one_bucket`: the `PARAM_M` targets of a left
   value lie within a bucket, and `has_match` does not compare buckets: it holds
   of a right value in the left value's own bucket, which the tables never
   pair with it, and `verify_only` accepts every tree whose pairs pass it.
4. `find_matches_in_buckets_prefix_of_bucket_matches`: the matches of a pair
   of buckets come out as a prefix of all its pairs in the relation, in bucket
   order, stopping short only after `REDUCED_MATCHES_COUNT`.
5. `table_create_keeps_first_matches` and `table_create_entries_match`:
   `Table::create` keeps exactly the first `REDUCED_MATCHES_COUNT` matches of
   each pair of adjacent buckets, and every entry it makes is `compute_fn` of
   two parent entries in the relation.
-/

namespace Subspace.ProofOfSpace

open Subspace.Lib

namespace Rmap

section Fields

variable (rmap : Rmap) (r position : ℕ)

@[simp]
theorem positions_add :
    (rmap.add r position).positions = Function.update rmap.positions rmap.nextPosition position := by
  by_cases fresh : rmap.virtualPointers r = 0 <;> simp [add, fresh]

@[simp]
theorem nextPosition_add : (rmap.add r position).nextPosition = rmap.nextPosition + 1 := by
  by_cases fresh : rmap.virtualPointers r = 0 <;> simp [add, fresh]

variable {rmap r}

theorem virtualPointers_add_of_eq_zero (fresh : rmap.virtualPointers r = 0) :
    (rmap.add r position).virtualPointers =
      Function.update rmap.virtualPointers r (rmap.nextEntry + 1) := by
  simp [add, fresh]

theorem entries_add_of_eq_zero (fresh : rmap.virtualPointers r = 0) :
    (rmap.add r position).entries = Function.update rmap.entries rmap.nextEntry (rmap.nextPosition, 1) := by
  simp [add, fresh]

theorem nextEntry_add_of_eq_zero (fresh : rmap.virtualPointers r = 0) :
    (rmap.add r position).nextEntry = rmap.nextEntry + 1 := by
  simp [add, fresh]

theorem virtualPointers_add_of_ne_zero (seen : rmap.virtualPointers r ≠ 0) :
    (rmap.add r position).virtualPointers = rmap.virtualPointers := by
  simp [add, seen]

theorem entries_add_of_ne_zero (seen : rmap.virtualPointers r ≠ 0) :
    (rmap.add r position).entries = Function.update rmap.entries (rmap.virtualPointers r - 1)
      ((rmap.entries (rmap.virtualPointers r - 1)).1,
        ((rmap.entries (rmap.virtualPointers r - 1)).2 + 1) % 2 ^ 8) := by
  simp [add, seen]

theorem nextEntry_add_of_ne_zero (seen : rmap.virtualPointers r ≠ 0) :
    (rmap.add r position).nextEntry = rmap.nextEntry := by
  simp [add, seen]

end Fields

/-- The positions added with `r`, in order. -/
def runOf (added : List (ℕ × ℕ)) (r : ℕ) : List ℕ :=
  (added.filter (·.1 = r)).map Prod.snd

@[simp]
theorem runOf_nil (r : ℕ) : runOf [] r = [] := rfl

theorem runOf_append_singleton (added : List (ℕ × ℕ)) (r position r' : ℕ) :
    runOf (added ++ [(r, position)]) r' =
      if r = r' then runOf added r' ++ [position] else runOf added r' := by
  by_cases same : r = r' <;> simp [runOf, same]

theorem runOf_eq_nil {added : List (ℕ × ℕ)} {r : ℕ} (absent : r ∉ added.map Prod.fst) :
    runOf added r = [] := by
  simp only [runOf, List.map_eq_nil_iff, List.filter_eq_nil_iff, decide_eq_true_eq]
  intro a member same
  exact absent (List.mem_map.mpr ⟨a, member, same⟩)

/-- Entry `p` of the map holds the run of `r` after the additions `added`:
the run is stored from the entry's start on, ends at or below
`next_position` (at it when `r` was added last), and the entry counts it
modulo `2 ^ 8`. -/
structure RunAt (rmap : Rmap) (added : List (ℕ × ℕ)) (r p : ℕ) : Prop where
  pointer : rmap.virtualPointers r = p + 1
  allocated : p < rmap.nextEntry
  count : (rmap.entries p).2 = (runOf added r).length % 2 ^ 8
  below : (rmap.entries p).1 + (runOf added r).length ≤ rmap.nextPosition
  last : (added.map Prod.fst).getLast? = some r →
    (rmap.entries p).1 + (runOf added r).length = rmap.nextPosition
  run : (List.range (runOf added r).length).map (fun i => rmap.positions ((rmap.entries p).1 + i)) =
    runOf added r

/-- The state of an `Rmap` after the additions `added`: an `r` never added
has no pointer, each added `r` points to its own entry, which holds its run. -/
structure Holds (rmap : Rmap) (added : List (ℕ × ℕ)) : Prop where
  absent : ∀ r, r ∉ added.map Prod.fst → rmap.virtualPointers r = 0
  present : ∀ r ∈ added.map Prod.fst, ∃ p, RunAt rmap added r p
  injective : ∀ r ∈ added.map Prod.fst, ∀ r' ∈ added.map Prod.fst,
    rmap.virtualPointers r = rmap.virtualPointers r' → r = r'

theorem holds_new : Holds new [] where
  absent _ _ := rfl
  present _ member := absurd member List.not_mem_nil
  injective _ member := absurd member List.not_mem_nil

/-- A run other than the added `r` survives an addition that keeps its pointer
and entry and writes at `next_position` only. -/
theorem RunAt.frame {rmap rmap' : Rmap} {added : List (ℕ × ℕ)} {r p r₀ position : ℕ}
    (runAt : RunAt rmap added r p) (other : r₀ ≠ r)
    (pointer : rmap'.virtualPointers r = rmap.virtualPointers r)
    (allocated : rmap.nextEntry ≤ rmap'.nextEntry) (entry : rmap'.entries p = rmap.entries p)
    (positions : ∀ i < rmap.nextPosition, rmap'.positions i = rmap.positions i)
    (nextPosition : rmap'.nextPosition = rmap.nextPosition + 1) :
    RunAt rmap' (added ++ [(r₀, position)]) r p := by
  have sameRun : runOf (added ++ [(r₀, position)]) r = runOf added r := by
    simp [runOf_append_singleton, other]
  refine ⟨pointer ▸ runAt.pointer, by have := runAt.allocated; omega, ?_, ?_, ?_, ?_⟩
  · rw [entry, sameRun, runAt.count]
  · rw [entry, sameRun, nextPosition]
    have := runAt.below
    omega
  · intro lastIsR
    simp only [List.map_append, List.map_cons, List.map_nil, List.getLast?_append,
      List.getLast?_singleton, Option.some_or, Option.some.injEq] at lastIsR
    exact absurd lastIsR other
  · rw [entry, sameRun]
    refine (List.map_congr_left fun i member => positions _ ?_).trans runAt.run
    have := runAt.below
    have := List.mem_range.mp member
    omega

section Step

variable {rmap : Rmap} {added : List (ℕ × ℕ)} {r position : ℕ}

theorem Holds.pointer_eq_zero_iff (holds : Holds rmap added) :
    rmap.virtualPointers r = 0 ↔ r ∉ added.map Prod.fst := by
  constructor
  · intro zero member
    obtain ⟨p, runAt⟩ := holds.present r member
    rw [runAt.pointer] at zero
    cases zero
  · exact holds.absent r

/-- A new `r` takes the next entry, whose run is the one position. -/
theorem Holds.add_of_not_mem (holds : Holds rmap added) (fresh : r ∉ added.map Prod.fst) :
    Holds (rmap.add r position) (added ++ [(r, position)]) := by
  have zero := holds.absent r fresh
  have newRun : RunAt (rmap.add r position) (added ++ [(r, position)]) r rmap.nextEntry := by
    have single : runOf (added ++ [(r, position)]) r = [position] := by
      simp [runOf_append_singleton, runOf_eq_nil fresh]
    refine ⟨?_, ?_, ?_, ?_, fun _ => ?_, ?_⟩ <;>
      simp [single, virtualPointers_add_of_eq_zero position zero,
        entries_add_of_eq_zero position zero, nextEntry_add_of_eq_zero position zero]
  refine ⟨fun r' absent => ?_, fun r' member => ?_, fun r' member r'' member' same => ?_⟩
  · have other : r' ≠ r := fun same => absent (by simp [same])
    have notBefore : r' ∉ added.map Prod.fst := fun member => absent (by simp [member])
    rw [virtualPointers_add_of_eq_zero position zero, Function.update_of_ne other]
    exact holds.absent r' notBefore
  · by_cases same : r' = r
    · subst same
      exact ⟨_, newRun⟩
    · have before : r' ∈ added.map Prod.fst := by simpa [same] using member
      obtain ⟨p, runAt⟩ := holds.present r' before
      refine ⟨p, runAt.frame (Ne.symm same) ?_ ?_ ?_ ?_ ?_⟩
      · rw [virtualPointers_add_of_eq_zero position zero, Function.update_of_ne same]
      · rw [nextEntry_add_of_eq_zero position zero]
        omega
      · rw [entries_add_of_eq_zero position zero, Function.update_of_ne (by
          have := runAt.allocated
          omega)]
      · intro i below
        rw [positions_add, Function.update_of_ne (by omega)]
      · exact nextPosition_add rmap r position
  · -- the new pointer is above every old one
    have oldPointer : ∀ s ∈ added.map Prod.fst,
        (rmap.add r position).virtualPointers s ≤ rmap.nextEntry := by
      intro s before
      have other : s ≠ r := fun same => fresh (same ▸ before)
      obtain ⟨p, runAt⟩ := holds.present s before
      rw [virtualPointers_add_of_eq_zero position zero, Function.update_of_ne other, runAt.pointer]
      exact runAt.allocated
    have newPointer : (rmap.add r position).virtualPointers r = rmap.nextEntry + 1 := by
      simp [virtualPointers_add_of_eq_zero position zero]
    have fromAdded : ∀ s ∈ (added ++ [(r, position)]).map Prod.fst,
        s ∈ added.map Prod.fst ∨ s = r := by
      simp
    rcases fromAdded r' member with before | isR <;>
      rcases fromAdded r'' member' with before' | isR'
    · have other : r' ≠ r := fun h => fresh (h ▸ before)
      have other' : r'' ≠ r := fun h => fresh (h ▸ before')
      rw [virtualPointers_add_of_eq_zero position zero, Function.update_of_ne other,
        Function.update_of_ne other'] at same
      exact holds.injective r' before r'' before' same
    · rw [isR', newPointer] at same
      have := oldPointer r' before
      omega
    · rw [isR, newPointer] at same
      have := oldPointer r'' before'
      omega
    · rw [isR, isR']

/-- An `r` added again, as the last one added, extends its run by the position;
its count goes up by one modulo `2 ^ 8`. -/
theorem Holds.add_of_getLast? (holds : Holds rmap added) (seen : r ∈ added.map Prod.fst)
    (lastAdded : (added.map Prod.fst).getLast? = some r) :
    Holds (rmap.add r position) (added ++ [(r, position)]) := by
  obtain ⟨q, runAt⟩ := holds.present r seen
  have pointer := runAt.pointer
  have nonzero : rmap.virtualPointers r ≠ 0 := by omega
  have physical : rmap.virtualPointers r - 1 = q := by omega
  have longer : runOf (added ++ [(r, position)]) r = runOf added r ++ [position] := by
    simp [runOf_append_singleton]
  have ends := runAt.last lastAdded
  have extended : RunAt (rmap.add r position) (added ++ [(r, position)]) r q := by
    refine ⟨?_, ?_, ?_, ?_, fun _ => ?_, ?_⟩
    · rw [virtualPointers_add_of_ne_zero position nonzero, pointer]
    · rw [nextEntry_add_of_ne_zero position nonzero]
      exact runAt.allocated
    · simp [entries_add_of_ne_zero position nonzero, physical, longer, runAt.count, Nat.add_mod]
    · simp [entries_add_of_ne_zero position nonzero, physical, longer]
      omega
    · simp [entries_add_of_ne_zero position nonzero, physical, longer]
      omega
    · simp only [entries_add_of_ne_zero position nonzero, physical, Function.update_self,
        positions_add, longer, List.length_append, List.length_singleton, List.range_succ,
        List.map_append, List.map_cons, List.map_nil]
      congr 1
      · refine Eq.trans ?_ runAt.run
        refine List.map_congr_left fun i member => ?_
        have := List.mem_range.mp member
        exact Function.update_of_ne (by omega) _ _
      · simp [ends]
  refine ⟨fun r' absent => ?_, fun r' member => ?_, fun r' member r'' member' same => ?_⟩
  · rw [virtualPointers_add_of_ne_zero position nonzero]
    exact holds.absent r' fun before => absent (by simp [before])
  · by_cases isR : r' = r
    · exact ⟨q, isR ▸ extended⟩
    · have before : r' ∈ added.map Prod.fst := by simpa [isR] using member
      obtain ⟨p, runAt'⟩ := holds.present r' before
      -- distinct `r`s have distinct entries
      have otherEntry : p ≠ q := by
        intro samePointer
        have := holds.injective r' before r seen (by rw [runAt'.pointer, pointer, samePointer])
        exact isR this
      refine ⟨p, runAt'.frame (Ne.symm isR) ?_ ?_ ?_ ?_ ?_⟩
      · rw [virtualPointers_add_of_ne_zero position nonzero]
      · rw [nextEntry_add_of_ne_zero position nonzero]
      · rw [entries_add_of_ne_zero position nonzero, physical, Function.update_of_ne otherEntry]
      · intro i below
        rw [positions_add, Function.update_of_ne (by omega)]
      · exact nextPosition_add rmap r position
  · have before : ∀ s ∈ (added ++ [(r, position)]).map Prod.fst, s ∈ added.map Prod.fst := by
      intro s member
      simp only [List.map_append, List.map_cons, List.map_nil, List.mem_append,
        List.mem_singleton] at member
      rcases member with before | rfl
      · exact before
      · exact seen
    rw [virtualPointers_add_of_ne_zero position nonzero] at same
    exact holds.injective r' (before r' member) r'' (before r'' member') same

/-- One `Rmap::add` within its contract: an `r` added before was the last one
added. -/
theorem Holds.add (holds : Holds rmap added)
    (runs : r ∈ added.map Prod.fst → (added.map Prod.fst).getLast? = some r) :
    Holds (rmap.add r position) (added ++ [(r, position)]) := by
  by_cases seen : r ∈ added.map Prod.fst
  · exact holds.add_of_getLast? seen (runs seen)
  · exact holds.add_of_not_mem seen

/-- `Rmap::get` reads the run back, cut to the count the entry keeps. -/
theorem Holds.get_eq (holds : Holds rmap added) (r : ℕ) :
    rmap.get r = (runOf added r).take ((runOf added r).length % 2 ^ 8) := by
  by_cases member : r ∈ added.map Prod.fst
  · obtain ⟨p, runAt⟩ := holds.present r member
    have pointer := runAt.pointer
    simp only [get, pointer, Nat.add_sub_cancel, Nat.add_one_ne_zero, if_false, runAt.count]
    calc (List.range ((runOf added r).length % 2 ^ 8)).map
          (fun i => rmap.positions ((rmap.entries p).1 + i))
        = ((List.range (runOf added r).length).map
            (fun i => rmap.positions ((rmap.entries p).1 + i))).take ((runOf added r).length % 2 ^ 8) := by
          rw [← List.map_take, List.take_range, Nat.min_eq_left (Nat.mod_le _ _)]
      _ = (runOf added r).take ((runOf added r).length % 2 ^ 8) := by rw [runAt.run]
  · simp [get, holds.absent r member, runOf_eq_nil member]

end Step

/-- The `Rmap` after the additions `added`, in order. -/
def ofAdditions (added : List (ℕ × ℕ)) : Rmap :=
  added.foldl (fun rmap addition => rmap.add addition.1 addition.2) new

theorem holds_ofAdditions {added : List (ℕ × ℕ)} (runs : Consecutive (added.map Prod.fst)) :
    Holds (ofAdditions added) added := by
  induction added using List.reverseRecOn with
  | nil => exact holds_new
  | append_singleton added addition ih =>
    rw [List.map_append, List.map_singleton] at runs
    rw [ofAdditions, List.foldl_append, List.foldl_cons, List.foldl_nil]
    exact (ih runs.of_append_singleton).add runs.getLast?_eq

end Rmap

/-- An `Rmap` filled within the contract of `Rmap::add` (the additions of one
`r` consecutive) returns, for each `r`, the positions added with it in order,
cut to their number modulo `2 ^ 8`: all of them when fewer than 256. -/
theorem rmap_get_eq_take_run (added : List (ℕ × ℕ)) (runs : Consecutive (added.map Prod.fst))
    (r : ℕ) :
    (Rmap.ofAdditions added).get r =
      (Rmap.runOf added r).take ((Rmap.runOf added r).length % 2 ^ 8) :=
  (Rmap.holds_ofAdditions runs).get_eq r

/-- Two additions of `r = 3`, then one of `5`: both positions of `3` come back. -/
theorem rmap_get_eq_take_run_three :
    Consecutive (([(3, 10), (3, 11), (5, 12)] : List (ℕ × ℕ)).map Prod.fst) ∧
      (Rmap.ofAdditions [(3, 10), (3, 11), (5, 12)]).get 3 =
        (Rmap.runOf [(3, 10), (3, 11), (5, 12)] 3).take
          ((Rmap.runOf [(3, 10), (3, 11), (5, 12)] 3).length % 2 ^ 8) :=
  ⟨consecutive_of_pairwise (by decide),
    rmap_get_eq_take_run _ (consecutive_of_pairwise (by decide)) 3⟩

/-! ## The loops of `find_matches_in_buckets` -/

/-- The entries of a bucket before its first sentinel. -/
def bucketEntries (bucket : List (ℕ × ℕ)) : List (ℕ × ℕ) :=
  bucket.takeWhile fun entry => entry.1 ≠ sentinel

/-- The matches the two inner loops look for a left entry: the right
positions of each of its targets, target by target. -/
def targetMatches (rmap : Rmap) (leftBase parity : ℕ) (left : ℕ × ℕ) : List Match :=
  (calculateLeftTargets parity ((left.2 - leftBase) % 2 ^ 16)).flatMap fun rTarget =>
    (rmap.get rTarget).map fun rightPosition => ⟨left.1, left.2, rightPosition⟩

theorem matchRightPositions_eq (leftPosition y : ℕ) (rightPositions : List ℕ)
    (found : List Match) :
    matchRightPositions leftPosition y rightPositions found =
      appendCapped matchesBufferSize found
        (rightPositions.map fun rightPosition => ⟨leftPosition, y, rightPosition⟩) := by
  induction rightPositions generalizing found with
  | nil => simp [matchRightPositions]
  | cons rightPosition rest ih =>
    by_cases full : matchesBufferSize ≤ found.length
    · simp [matchRightPositions, full, appendCapped_of_le full]
    · rw [matchRightPositions, if_neg full, ih, List.map_cons, appendCapped_cons (by omega)]

/-- The loop over the targets appends, up to the buffer's capacity, the
matches of every target in turn. -/
theorem foldl_matchRightPositions (rmap : Rmap) (leftPosition y : ℕ) (targets : List ℕ)
    (found : List Match) :
    targets.foldl (fun found rTarget => matchRightPositions leftPosition y (rmap.get rTarget) found)
        found =
      appendCapped matchesBufferSize found (targets.flatMap fun rTarget =>
        (rmap.get rTarget).map fun rightPosition => ⟨leftPosition, y, rightPosition⟩) := by
  induction targets generalizing found with
  | nil => simp
  | cons rTarget targets ih =>
    rw [List.foldl_cons, ih, matchRightPositions_eq, appendCapped_append, List.flatMap_cons]

section LeftLoop

variable (rmap : Rmap) (leftBase parity : ℕ)

theorem matchLeftBucket_of_full {found : List Match} (full : reducedMatchesCount ≤ found.length)
    (leftBucket : List (ℕ × ℕ)) : matchLeftBucket rmap leftBase parity leftBucket found = found := by
  cases leftBucket with
  | nil => rfl
  | cons left rest => simp [matchLeftBucket, full]

theorem matchLeftBucket_cons {leftPosition y : ℕ} {rest : List (ℕ × ℕ)} {found : List Match}
    (notSentinel : leftPosition ≠ sentinel) (room : found.length < reducedMatchesCount) :
    matchLeftBucket rmap leftBase parity ((leftPosition, y) :: rest) found =
      matchLeftBucket rmap leftBase parity rest
        (appendCapped matchesBufferSize found (targetMatches rmap leftBase parity (leftPosition, y))) := by
  rw [matchLeftBucket, if_neg (by omega)]
  dsimp only
  rw [foldl_matchRightPositions]
  rfl

/-- The left loop finds a prefix of the matches of its entries, in order; it
stops short only once `REDUCED_MATCHES_COUNT` are found, and never fills more
than the buffer. The induction is on the left bucket, the matches found so far
being any that fit the buffer. -/
theorem matchLeftBucket_eq_append_take (leftBucket : List (ℕ × ℕ)) (found : List Match)
    (fits : found.length ≤ matchesBufferSize) :
    ∃ n, matchLeftBucket rmap leftBase parity leftBucket found =
        found ++ ((bucketEntries leftBucket).flatMap (targetMatches rmap leftBase parity)).take n ∧
      (n < ((bucketEntries leftBucket).flatMap (targetMatches rmap leftBase parity)).length →
        reducedMatchesCount ≤ found.length + n) ∧
      found.length + n ≤ matchesBufferSize := by
  induction leftBucket generalizing found with
  | nil => exact ⟨0, by simp [matchLeftBucket], by simp [bucketEntries], by simpa using fits⟩
  | cons left rest ih =>
    obtain ⟨leftPosition, y⟩ := left
    by_cases atSentinel : leftPosition = sentinel
    · refine ⟨0, by simp [matchLeftBucket, atSentinel], ?_, by simpa using fits⟩
      simp [bucketEntries, atSentinel]
    by_cases full : reducedMatchesCount ≤ found.length
    · exact ⟨0, by simp [matchLeftBucket_of_full _ _ _ full], fun _ => by simpa using full,
        by simpa using fits⟩
    have entriesCons : bucketEntries ((leftPosition, y) :: rest) =
        (leftPosition, y) :: bucketEntries rest := by
      simp [bucketEntries, atSentinel]
    have capacity : reducedMatchesCount ≤ matchesBufferSize := by decide
    rw [matchLeftBucket_cons rmap leftBase parity atSentinel (by omega), entriesCons,
      List.flatMap_cons]
    set here := targetMatches rmap leftBase parity (leftPosition, y)
    set later := (bucketEntries rest).flatMap (targetMatches rmap leftBase parity)
    by_cases overflows : matchesBufferSize - found.length < here.length
    · -- the buffer fills within this entry; the loop stops at the next one
      have filled : reducedMatchesCount ≤ (appendCapped matchesBufferSize found here).length := by
        rw [length_appendCapped]
        omega
      refine ⟨matchesBufferSize - found.length, ?_, fun _ => by omega, by omega⟩
      rw [matchLeftBucket_of_full _ _ _ filled, appendCapped,
        List.take_append_of_le_length (by omega)]
    · have whole : appendCapped matchesBufferSize found here = found ++ here := by
        rw [appendCapped, List.take_of_length_le (by omega)]
      obtain ⟨n, loop, short, bounded⟩ := ih (found ++ here) (by simp; omega)
      refine ⟨here.length + n, ?_, fun shorter => ?_, ?_⟩
      · rw [whole, loop, List.take_length_add_append, List.append_assoc]
      · have := short (by simp at shorter; omega)
        simp only [List.length_append] at this
        omega
      · simp only [List.length_append] at bounded
        omega

end LeftLoop

/-! ## The targets -/

section Targets

theorem paramBC_eq : paramBC = 15113 := rfl

/-- The row of a target, its quotient by `PARAM_C`, is `(r / PARAM_C + m) % PARAM_B`. -/
theorem calculateLeftTargetOnDemand_div (parity r m : ℕ) :
    calculateLeftTargetOnDemand parity r m / paramC = (r / paramC + m) % paramB := by
  unfold calculateLeftTargetOnDemand
  have column : ((2 * m + parity) * (2 * m + parity) + r) % paramC < paramC :=
    Nat.mod_lt _ (by decide)
  generalize ((2 * m + parity) * (2 * m + parity) + r) % paramC = column at column ⊢
  simp only [paramC, paramB] at *
  omega

theorem calculateLeftTargetOnDemand_lt (parity r m : ℕ) :
    calculateLeftTargetOnDemand parity r m < paramBC := by
  unfold calculateLeftTargetOnDemand
  have row : (r / paramC + m) % paramB < paramB := Nat.mod_lt _ (by decide)
  have column : ((2 * m + parity) * (2 * m + parity) + r) % paramC < paramC :=
    Nat.mod_lt _ (by decide)
  generalize (r / paramC + m) % paramB = row at row ⊢
  generalize ((2 * m + parity) * (2 * m + parity) + r) % paramC = column at column ⊢
  simp only [paramBC, paramC, paramB] at *
  omega

/-- The `PARAM_M` targets lie in distinct rows, `PARAM_M` being at most `PARAM_B`. -/
theorem nodup_leftTargetsOnDemand (parity r : ℕ) :
    ((List.range paramM).map (calculateLeftTargetOnDemand parity r)).Nodup := by
  refine List.nodup_range.map_on fun m member m' member' same => ?_
  have rows := congrArg (· / paramC) same
  simp only [calculateLeftTargetOnDemand_div] at rows
  have := List.mem_range.mp member
  have := List.mem_range.mp member'
  simp only [paramM, paramExt, paramB] at *
  omega

@[simp]
theorem length_calculateLeftTargets (parity r : ℕ) :
    (calculateLeftTargets parity r).length = paramM := by
  simp [calculateLeftTargets]

theorem calculateLeftTargets_pairwise_lt (parity r : ℕ) :
    (calculateLeftTargets parity r).Pairwise (· < ·) := by
  have sorted : (calculateLeftTargets parity r).Pairwise (fun a b => decide (a ≤ b)) :=
    List.pairwise_mergeSort (fun a b c ab bc => by simp only [decide_eq_true_eq] at *; omega)
      (fun a b => by simp only [Bool.or_eq_true, decide_eq_true_eq]; omega) _
  have distinct : (calculateLeftTargets parity r).Nodup :=
    (List.mergeSort_perm _ _).nodup_iff.mpr (nodup_leftTargetsOnDemand parity r)
  exact (sorted.and distinct).imp fun ⟨le, ne⟩ => lt_of_le_of_ne (by simpa using le) ne

theorem lt_paramBC_of_mem_calculateLeftTargets {parity r t : ℕ}
    (member : t ∈ calculateLeftTargets parity r) : t < paramBC := by
  obtain ⟨m, -, rfl⟩ := by simpa [calculateLeftTargets] using member
  exact calculateLeftTargetOnDemand_lt parity r m

/-- The `m`-th target of a left value is among its targets. -/
theorem calculateLeftTargetOnDemand_mem {m : ℕ} (parity r : ℕ) (inRange : m < paramM) :
    calculateLeftTargetOnDemand parity r m ∈ calculateLeftTargets parity r := by
  rw [calculateLeftTargets, List.mem_mergeSort]
  exact List.mem_map_of_mem (List.mem_range.mpr inRange)

/-- A value placed in a bucket at a place within it lies in that bucket. -/
theorem bucket_of_lt_paramBC (bucket place : ℕ) (within : place < paramBC) :
    (bucket * paramBC + place) / paramBC = bucket ∧ (bucket * paramBC + place) % paramBC = place := by
  have positive : 0 < paramBC := by decide
  constructor
  · rw [Nat.add_comm, Nat.add_mul_div_right _ _ positive, Nat.div_eq_of_lt within, Nat.zero_add]
  · rw [Nat.add_comm, Nat.add_mul_mod_self_right, Nat.mod_eq_of_lt within]

/-- `has_match`, with which `verify_only` checks every pair of a proof's tree, holds of a
right value in the left value's own bucket: the left value's first target, placed in that
bucket. `find_matches_in_buckets` pairs a bucket with the next one only, so no table holds such
a pair; yet `verify_only` accepts every tree whose pairs pass `has_match` and whose root matches
the challenge. -/
theorem verify_only_accepts_pairs_of_one_bucket :
    (∀ leftY, ∃ rightY, rightY / paramBC = leftY / paramBC ∧ hasMatch leftY rightY = true ∧
      ¬FindMatchesRelation leftY rightY) ∧
    ∀ (hashes : PosHashes) (k : ℕ) (firstChallengeBytes proofOfSpace : List ℕ),
      (∀ t, 1 ≤ t → t ≤ 6 → PairsMatch (proofTable hashes k proofOfSpace t)) →
      (∃ y metadata, (proofTable hashes k proofOfSpace 7).head? = some (y, metadata) ∧
        firstKBits y = fromBeBytes firstChallengeBytes / 2 ^ (32 - k)) →
      verifyOnly hashes k firstChallengeBytes proofOfSpace = true := by
  refine ⟨fun leftY => ?_, fun hashes k firstChallengeBytes proofOfSpace matched root =>
    (verifyOnly_eq_true_iff hashes k firstChallengeBytes proofOfSpace).mpr ⟨matched, root⟩⟩
  -- the left value's first target, in the left value's bucket
  have within := calculateLeftTargetOnDemand_lt ((leftY / paramBC) % 2) (leftY % paramBC) 0
  obtain ⟨bucket, place⟩ := bucket_of_lt_paramBC (leftY / paramBC) _ within
  refine ⟨_, bucket, ?_, fun related => ?_⟩
  · rw [hasMatch_iff, place]
    exact calculateLeftTargetOnDemand_mem _ _ (by decide)
  · have next := related.1
    rw [bucket] at next
    omega

end Targets

/-! ## Matching a pair of buckets -/

/-- The right entries a left entry is matched with: those in the relation, in
the right bucket's order. -/
def matchesOf (rightEntries : List (ℕ × ℕ)) (left : ℕ × ℕ) : List Match :=
  (rightEntries.filter fun right => FindMatchesRelation left.2 right.2).map
    fun right => ⟨left.1, left.2, right.1⟩

/-- Every pair of a left and a right entry in the relation, in the order of the
left entries, then of the right ones. -/
def bucketMatches (leftEntries rightEntries : List (ℕ × ℕ)) : List Match :=
  leftEntries.flatMap (matchesOf rightEntries)

/-- What `find_matches_in_buckets` asks of the entries of a pair of buckets:
the left ones lie in bucket `b` and the right ones in bucket `b + 1`, sorted
by `y`. -/
structure BucketPair (b : ℕ) (leftEntries rightEntries : List (ℕ × ℕ)) : Prop where
  inLeftBucket : ∀ left ∈ leftEntries, left.2 / paramBC = b
  inRightBucket : ∀ right ∈ rightEntries, right.2 / paramBC = b + 1
  rightSorted : rightEntries.Pairwise (·.2 ≤ ·.2)

/-- The additions the first loop of `find_matches_in_buckets` makes to the
`Rmap`. -/
def rightAdditions (rightBase : ℕ) (rightEntries : List (ℕ × ℕ)) : List (ℕ × ℕ) :=
  rightEntries.map fun right => ((right.2 - rightBase) % 2 ^ 16, right.1)

theorem addRightBucket_eq (rightBase : ℕ) (rightBucket : List (ℕ × ℕ)) (rmap : Rmap) :
    addRightBucket rightBase rightBucket rmap =
      (rightAdditions rightBase (bucketEntries rightBucket)).foldl
        (fun rmap addition => rmap.add addition.1 addition.2) rmap := by
  induction rightBucket generalizing rmap with
  | nil => rfl
  | cons right rest ih =>
    obtain ⟨rightPosition, y⟩ := right
    by_cases atSentinel : rightPosition = sentinel
    · simp [addRightBucket, bucketEntries, rightAdditions, atSentinel]
    · rw [addRightBucket, if_neg atSentinel, ih]
      simp [bucketEntries, rightAdditions, atSentinel]

theorem findMatchesInBuckets_eq (b : ℕ) (leftBucket rightBucket : List (ℕ × ℕ)) :
    findMatchesInBuckets b leftBucket rightBucket =
      matchLeftBucket
        (Rmap.ofAdditions (rightAdditions (b * paramBC + paramBC) (bucketEntries rightBucket)))
        (b * paramBC) (b * paramBC % 2) leftBucket [] := by
  rw [findMatchesInBuckets, addRightBucket_eq]
  rfl

section BucketPair

variable {b : ℕ} {leftEntries rightEntries : List (ℕ × ℕ)}

theorem leftKey_eq {y : ℕ} (inLeft : y / paramBC = b) : (y - b * paramBC) % 2 ^ 16 = y % paramBC := by
  simp only [paramBC_eq] at *
  omega

theorem rightKey_eq {y : ℕ} (inRight : y / paramBC = b + 1) :
    (y - (b * paramBC + paramBC)) % 2 ^ 16 = y % paramBC := by
  simp only [paramBC_eq] at *
  omega

/-- `PARAM_BC` is odd, so the parity of the left base is that of the bucket. -/
theorem leftBase_mod_two (b : ℕ) : b * paramBC % 2 = b % 2 := by
  simp only [paramBC_eq]
  omega

/-- Within one bucket, a larger `y` has a larger `r`. -/
theorem BucketPair.rightSorted_mod (pair : BucketPair b leftEntries rightEntries) :
    rightEntries.Pairwise (·.2 % paramBC ≤ ·.2 % paramBC) :=
  pair.rightSorted.imp_of_mem fun {right right'} member member' le => by
    have := pair.inRightBucket right member
    have := pair.inRightBucket right' member'
    simp only [paramBC_eq] at *
    omega

theorem BucketPair.keys_rightAdditions (pair : BucketPair b leftEntries rightEntries) :
    (rightAdditions (b * paramBC + paramBC) rightEntries).map Prod.fst =
      rightEntries.map (·.2 % paramBC) := by
  rw [rightAdditions, List.map_map]
  refine List.map_congr_left fun right member => ?_
  rw [Function.comp_apply, rightKey_eq (pair.inRightBucket right member)]

theorem BucketPair.consecutive_rightAdditions (pair : BucketPair b leftEntries rightEntries) :
    Consecutive ((rightAdditions (b * paramBC + paramBC) rightEntries).map Prod.fst) := by
  rw [pair.keys_rightAdditions]
  exact consecutive_of_pairwise (List.pairwise_map.mpr pair.rightSorted_mod)

theorem BucketPair.runOf_rightAdditions (pair : BucketPair b leftEntries rightEntries) (t : ℕ) :
    Rmap.runOf (rightAdditions (b * paramBC + paramBC) rightEntries) t =
      (rightEntries.filter fun right => right.2 % paramBC = t).map Prod.fst := by
  unfold Rmap.runOf rightAdditions
  rw [List.filter_map, List.map_map]
  have sameFilter : rightEntries.filter ((fun addition : ℕ × ℕ => decide (addition.1 = t)) ∘
        fun right => ((right.2 - (b * paramBC + paramBC)) % 2 ^ 16, right.1)) =
      rightEntries.filter fun right => right.2 % paramBC = t :=
    List.filter_congr fun right member => by
      rw [Function.comp_apply, rightKey_eq (pair.inRightBucket right member)]
  rw [sameFilter]
  exact List.map_congr_left fun _ _ => rfl

/-- The `Rmap` of the right bucket. -/
def rightRmap (b : ℕ) (rightEntries : List (ℕ × ℕ)) : Rmap :=
  Rmap.ofAdditions (rightAdditions (b * paramBC + paramBC) rightEntries)

/-- Every position the `Rmap` returns for `t` is that of a right entry at `t`. -/
theorem BucketPair.mem_get_rightRmap (pair : BucketPair b leftEntries rightEntries) {t p : ℕ}
    (member : p ∈ (rightRmap b rightEntries).get t) :
    ∃ right ∈ rightEntries, right.2 % paramBC = t ∧ right.1 = p := by
  rw [rightRmap, (Rmap.holds_ofAdditions pair.consecutive_rightAdditions).get_eq,
    pair.runOf_rightAdditions] at member
  obtain ⟨right, kept, rfl⟩ := List.mem_map.mp (List.mem_of_mem_take member)
  obtain ⟨mem, atT⟩ := List.mem_filter.mp kept
  exact ⟨right, mem, by simpa using atT, rfl⟩

/-- With no `y` repeated `2 ^ 8` times on the right, the `Rmap` returns all
the right positions at `t`. -/
theorem BucketPair.get_rightRmap (pair : BucketPair b leftEntries rightEntries)
    (fewRepeats : ∀ y, (rightEntries.filter (·.2 = y)).length < 2 ^ 8) (t : ℕ) :
    (rightRmap b rightEntries).get t =
      (rightEntries.filter fun right => right.2 % paramBC = t).map Prod.fst := by
  rw [rightRmap, (Rmap.holds_ofAdditions pair.consecutive_rightAdditions).get_eq,
    pair.runOf_rightAdditions]
  -- the entries at `t` are those of one `y`
  have oneY : (rightEntries.filter fun right => right.2 % paramBC = t) =
      rightEntries.filter (·.2 = (b + 1) * paramBC + t) := by
    refine List.filter_congr fun right member => ?_
    have := pair.inRightBucket right member
    rw [decide_eq_decide]
    rw [paramBC_eq] at this ⊢
    omega
  have few := fewRepeats ((b + 1) * paramBC + t)
  rw [← oneY] at few
  rw [List.length_map, Nat.mod_eq_of_lt few, List.take_of_length_le (by simp)]

/-- For a left entry of bucket `b` and a right entry of bucket `b + 1`, the
relation is the right entry's `r` being among the targets the loop computes
for the left one. -/
theorem BucketPair.findMatchesRelation_iff (pair : BucketPair b leftEntries rightEntries)
    {left right : ℕ × ℕ} (memLeft : left ∈ leftEntries) (memRight : right ∈ rightEntries) :
    FindMatchesRelation left.2 right.2 ↔
      right.2 % paramBC ∈ calculateLeftTargets (b * paramBC % 2) ((left.2 - b * paramBC) % 2 ^ 16) := by
  have inLeft := pair.inLeftBucket left memLeft
  rw [FindMatchesRelation, leftKey_eq inLeft, inLeft, pair.inRightBucket right memRight,
    leftBase_mod_two]
  simp

/-- Every match the two inner loops make for a left entry is in the relation. -/
theorem BucketPair.mem_matchesOf (pair : BucketPair b leftEntries rightEntries) {left : ℕ × ℕ}
    {m : Match} (memLeft : left ∈ leftEntries)
    (found : m ∈ targetMatches (rightRmap b rightEntries) (b * paramBC) (b * paramBC % 2) left) :
    m ∈ matchesOf rightEntries left := by
  obtain ⟨t, target, looked⟩ := List.mem_flatMap.mp found
  obtain ⟨p, atT, rfl⟩ := List.mem_map.mp looked
  obtain ⟨right, memRight, key, rfl⟩ := pair.mem_get_rightRmap atT
  refine List.mem_map.mpr ⟨right, List.mem_filter.mpr ⟨memRight, ?_⟩, rfl⟩
  rw [decide_eq_true_eq, pair.findMatchesRelation_iff memLeft memRight, key]
  exact target

/-- The two inner loops make, for a left entry, exactly its matches in the
relation when no `y` repeats `2 ^ 8` times on the right. -/
theorem BucketPair.targetMatches_eq (pair : BucketPair b leftEntries rightEntries)
    (fewRepeats : ∀ y, (rightEntries.filter (·.2 = y)).length < 2 ^ 8) {left : ℕ × ℕ}
    (memLeft : left ∈ leftEntries) :
    targetMatches (rightRmap b rightEntries) (b * paramBC) (b * paramBC % 2) left =
      matchesOf rightEntries left := by
  set targets := calculateLeftTargets (b * paramBC % 2) ((left.2 - b * paramBC) % 2 ^ 16)
  calc targetMatches (rightRmap b rightEntries) (b * paramBC) (b * paramBC % 2) left
      = (targets.flatMap fun t => rightEntries.filter fun right => right.2 % paramBC = t).map
          fun right => (⟨left.1, left.2, right.1⟩ : Match) := by
        simp only [targetMatches, pair.get_rightRmap fewRepeats, List.map_flatMap, List.map_map]
        rfl
    _ = (rightEntries.filter fun right => right.2 % paramBC ∈ targets).map
          fun right => (⟨left.1, left.2, right.1⟩ : Match) := by
        congr 1
        exact flatMap_filter_eq_filter_mem (fun right : ℕ × ℕ => right.2 % paramBC) pair.rightSorted_mod
          (calculateLeftTargets_pairwise_lt _ _)
    _ = matchesOf rightEntries left := by
        unfold matchesOf
        congr 1
        refine List.filter_congr fun right memRight => ?_
        rw [decide_eq_decide, pair.findMatchesRelation_iff memLeft memRight]

end BucketPair

/-- The loops of `find_matches_in_buckets` find a prefix of the matches the
two inner loops make, left entry by left entry. -/
theorem findMatchesInBuckets_eq_take (b : ℕ) (leftBucket rightBucket : List (ℕ × ℕ)) :
    ∃ n, findMatchesInBuckets b leftBucket rightBucket =
        ((bucketEntries leftBucket).flatMap (targetMatches (rightRmap b (bucketEntries rightBucket))
          (b * paramBC) (b * paramBC % 2))).take n ∧
      (n < ((bucketEntries leftBucket).flatMap (targetMatches (rightRmap b (bucketEntries rightBucket))
          (b * paramBC) (b * paramBC % 2))).length → reducedMatchesCount ≤ n) ∧
      n ≤ matchesBufferSize := by
  obtain ⟨n, found, short, bounded⟩ :=
    matchLeftBucket_eq_append_take (rightRmap b (bucketEntries rightBucket)) (b * paramBC)
      (b * paramBC % 2) leftBucket [] (by simp)
  refine ⟨n, ?_, by simpa using short, by simpa using bounded⟩
  rw [findMatchesInBuckets_eq, ← rightRmap, found, List.nil_append]

/-- Every match `find_matches_in_buckets` finds is a pair of a left and a right
entry in the relation. -/
theorem BucketPair.mem_bucketMatches {b : ℕ} {leftBucket rightBucket : List (ℕ × ℕ)}
    (pair : BucketPair b (bucketEntries leftBucket) (bucketEntries rightBucket)) {m : Match}
    (found : m ∈ findMatchesInBuckets b leftBucket rightBucket) :
    m ∈ bucketMatches (bucketEntries leftBucket) (bucketEntries rightBucket) := by
  obtain ⟨n, eq, -, -⟩ := findMatchesInBuckets_eq_take b leftBucket rightBucket
  rw [eq] at found
  obtain ⟨left, memLeft, here⟩ := List.mem_flatMap.mp (List.mem_of_mem_take found)
  exact List.mem_flatMap.mpr ⟨left, memLeft, pair.mem_matchesOf memLeft here⟩

/-- `find_matches_in_buckets` finds the matches of a pair of buckets in order,
left entry by left entry, and stops short of all of them only after
`REDUCED_MATCHES_COUNT`, never filling more than its buffer; this when no `y`
is repeated `2 ^ 8` times in the right bucket, whose `Rmap` counts would wrap. -/
theorem find_matches_in_buckets_prefix_of_bucket_matches (b : ℕ)
    (leftBucket rightBucket : List (ℕ × ℕ))
    (pair : BucketPair b (bucketEntries leftBucket) (bucketEntries rightBucket))
    (fewRepeats : ∀ y, ((bucketEntries rightBucket).filter (·.2 = y)).length < 2 ^ 8) :
    findMatchesInBuckets b leftBucket rightBucket <+:
        bucketMatches (bucketEntries leftBucket) (bucketEntries rightBucket) ∧
      ((findMatchesInBuckets b leftBucket rightBucket).length <
          (bucketMatches (bucketEntries leftBucket) (bucketEntries rightBucket)).length →
        reducedMatchesCount ≤ (findMatchesInBuckets b leftBucket rightBucket).length) ∧
      (findMatchesInBuckets b leftBucket rightBucket).length ≤ matchesBufferSize := by
  obtain ⟨n, eq, short, bounded⟩ := findMatchesInBuckets_eq_take b leftBucket rightBucket
  have all : (bucketEntries leftBucket).flatMap (targetMatches (rightRmap b (bucketEntries rightBucket))
      (b * paramBC) (b * paramBC % 2)) =
      bucketMatches (bucketEntries leftBucket) (bucketEntries rightBucket) :=
    List.flatMap_congr fun left memLeft => pair.targetMatches_eq fewRepeats memLeft
  rw [all] at eq short
  rw [eq, List.length_take]
  refine ⟨List.take_prefix _ _, fun shorter => ?_, by omega⟩
  have := short (by omega)
  omega

/-- Two left values in bucket `0` and four right values in bucket `1`, two at targets of
each: all four pairs are found, left value by left value, each in the right bucket's order. -/
theorem find_matches_in_buckets_prefix_two_left_values :
    let leftBucket := [(0, 0), (1, 1), (sentinel, sentinel)]
    let rightBucket := [(10, paramBC), (11, paramBC + 1), (12, paramBC + 131), (13, paramBC + 132),
      (sentinel, sentinel)]
    findMatchesInBuckets 0 leftBucket rightBucket = [⟨0, 0, 10⟩, ⟨0, 0, 12⟩, ⟨1, 1, 11⟩, ⟨1, 1, 13⟩] ∧
    findMatchesInBuckets 0 leftBucket rightBucket <+:
        bucketMatches (bucketEntries leftBucket) (bucketEntries rightBucket) ∧
      ((findMatchesInBuckets 0 leftBucket rightBucket).length <
          (bucketMatches (bucketEntries leftBucket) (bucketEntries rightBucket)).length →
        reducedMatchesCount ≤ (findMatchesInBuckets 0 leftBucket rightBucket).length) ∧
      (findMatchesInBuckets 0 leftBucket rightBucket).length ≤ matchesBufferSize := by
  intro leftBucket rightBucket
  have found := find_matches_in_buckets_prefix_of_bucket_matches 0 leftBucket rightBucket
    ⟨by decide, by decide, by decide⟩
    fun _ => lt_of_le_of_lt (List.length_filter_le _ _) (by decide)
  have all : bucketMatches (bucketEntries leftBucket) (bucketEntries rightBucket) =
      [⟨0, 0, 10⟩, ⟨0, 0, 12⟩, ⟨1, 1, 11⟩, ⟨1, 1, 13⟩] := by decide
  refine ⟨?_, found⟩
  obtain ⟨prefixed, short, -⟩ := found
  rw [all] at prefixed short
  -- a prefix cut short would hold `REDUCED_MATCHES_COUNT` of four matches
  have whole : (findMatchesInBuckets 0 leftBucket rightBucket).length = 4 := by
    have atMost := prefixed.length_le
    simp only [List.length_cons, List.length_nil] at atMost short
    by_contra shorter
    have cut := short (by omega)
    simp only [reducedMatchesCount, maxBucketSize] at cut
    omega
  exact prefixed.eq_of_length whole

/-! ## The buckets of a table -/

section Buckets

/-- The `(position, y)` entries of the pairs `(y, position)` whose `y` lies in
bucket `i`, in order. -/
def entriesInBucket (yAndPositions : List (ℕ × ℕ)) (i : ℕ) : List (ℕ × ℕ) :=
  (yAndPositions.filter fun yAndPosition => yAndPosition.1 / paramBC = i).map
    fun yAndPosition => (yAndPosition.2, yAndPosition.1)

theorem entriesInBucket_append_singleton (yAndPositions : List (ℕ × ℕ)) (a : ℕ × ℕ) (i : ℕ) :
    entriesInBucket (yAndPositions ++ [a]) i =
      if a.1 / paramBC = i then entriesInBucket yAndPositions i ++ [(a.2, a.1)]
      else entriesInBucket yAndPositions i := by
  by_cases here : a.1 / paramBC = i <;> simp [entriesInBucket, here]

theorem mem_entriesInBucket {ys : List ℕ} {i : ℕ} {entry : ℕ × ℕ}
    (member : entry ∈ entriesInBucket ys.zipIdx i) :
    ys[entry.1]? = some entry.2 ∧ entry.2 / paramBC = i := by
  obtain ⟨⟨y, position⟩, kept, rfl⟩ := List.mem_map.mp member
  obtain ⟨mem, bucket⟩ := List.mem_filter.mp kept
  exact ⟨List.mem_zipIdx_iff_getElem?.mp mem, by simpa using bucket⟩

theorem groupStep_apply (buckets : ℕ → List (ℕ × ℕ)) (a : ℕ × ℕ) (i : ℕ) :
    groupStep buckets a i =
      if a.1 / paramBC = i ∧ (buckets i).length < reducedBucketSize then buckets i ++ [(a.2, a.1)]
      else buckets i := by
  unfold groupStep
  by_cases here : a.1 / paramBC = i
  · subst here
    split <;> simp [*]
  · split <;> simp [here, Function.update_of_ne (Ne.symm here)]

/-- The loop of `group_by_buckets` leaves in bucket `i` the first
`REDUCED_BUCKET_SIZE` entries of its range. The induction adds one `y` at the
end: it lands in its bucket exactly when fewer entries came before. -/
theorem foldl_groupStep (yAndPositions : List (ℕ × ℕ)) (i : ℕ) :
    yAndPositions.foldl groupStep (fun _ => []) i =
      (entriesInBucket yAndPositions i).take reducedBucketSize := by
  induction yAndPositions using List.reverseRecOn generalizing i with
  | nil => simp [entriesInBucket]
  | append_singleton yAndPositions a ih =>
    rw [List.foldl_append, List.foldl_cons, List.foldl_nil, groupStep_apply, ih,
      entriesInBucket_append_singleton]
    by_cases here : a.1 / paramBC = i
    · by_cases room : (entriesInBucket yAndPositions i).length < reducedBucketSize
      · have short : ((entriesInBucket yAndPositions i).take reducedBucketSize).length <
            reducedBucketSize := by
          simp
          omega
        rw [if_pos ⟨here, short⟩, if_pos here, List.take_of_length_le room.le,
          List.take_of_length_le (by simp; omega)]
      · have full : ¬((entriesInBucket yAndPositions i).take reducedBucketSize).length <
            reducedBucketSize := by
          simp
          omega
        rw [if_neg fun h => full h.2, if_pos here, List.take_append_of_le_length (by omega)]
    · rw [if_neg fun h => here h.1, if_neg here]

/-- `group_by_buckets` gives `num_buckets` buckets; bucket `i` holds the first
`REDUCED_BUCKET_SIZE` entries `(position, y)` whose `y` lies in it, in
position order, then sentinels up to `REDUCED_BUCKET_SIZE` slots. -/
theorem group_by_buckets_keeps_first_entries (k : ℕ) (ys : List ℕ) :
    groupByBuckets k ys = (List.range (numBuckets k)).map fun i =>
      padBucket ((entriesInBucket ys.zipIdx i).take reducedBucketSize) := by
  simp only [groupByBuckets, foldl_groupStep]

theorem bucketEntries_padBucket {bucket : List (ℕ × ℕ)}
    (noSentinel : ∀ entry ∈ bucket, entry.1 ≠ sentinel) : bucketEntries (padBucket bucket) = bucket := by
  unfold bucketEntries padBucket
  rw [List.takeWhile_append_of_pos (by simpa using noSentinel)]
  cases reducedBucketSize - bucket.length with
  | zero => simp
  | succ n => simp [List.replicate_succ]

theorem length_padBucket {bucket : List (ℕ × ℕ)} (fits : bucket.length ≤ reducedBucketSize) :
    (padBucket bucket).length = reducedBucketSize := by
  simp [padBucket]
  omega

/-- Sorting a padded bucket sorts what comes before the sentinels. -/
theorem sortBucket_padBucket {bucket : List (ℕ × ℕ)}
    (noSentinel : ∀ entry ∈ bucket, entry.1 ≠ sentinel) :
    sortBucket (padBucket bucket) = padBucket (bucket.mergeSort entryKeyLe) := by
  have entries := bucketEntries_padBucket noSentinel
  unfold bucketEntries at entries
  simp only [sortBucket, entries]
  simp [padBucket]

theorem entryKeyLe_trans (a b c : ℕ × ℕ) (ab : entryKeyLe a b) (bc : entryKeyLe b c) :
    entryKeyLe a c := by
  simp only [entryKeyLe, decide_eq_true_eq] at *
  omega

theorem entryKeyLe_total (a b : ℕ × ℕ) : entryKeyLe a b || entryKeyLe b a := by
  simp only [entryKeyLe, Bool.or_eq_true, decide_eq_true_eq]
  omega

/-- The entries of bucket `i` of a table of `ys`: the first
`REDUCED_BUCKET_SIZE` of its range, sorted by `(y, position)`. -/
def tableEntries (ys : List ℕ) (i : ℕ) : List (ℕ × ℕ) :=
  ((entriesInBucket ys.zipIdx i).take reducedBucketSize).mergeSort entryKeyLe

theorem mem_tableEntries {ys : List ℕ} {i : ℕ} {entry : ℕ × ℕ} (member : entry ∈ tableEntries ys i) :
    ys[entry.1]? = some entry.2 ∧ entry.2 / paramBC = i :=
  mem_entriesInBucket (List.mem_of_mem_take (List.mem_mergeSort.mp member))

theorem tableEntries_not_sentinel {ys : List ℕ} (fits : ys.length ≤ sentinel) {i : ℕ} :
    ∀ entry ∈ tableEntries ys i, entry.1 ≠ sentinel := by
  intro entry member
  obtain ⟨bound, -⟩ := List.getElem?_eq_some_iff.mp (mem_tableEntries member).1
  omega

theorem tableEntries_pairwise (ys : List ℕ) (i : ℕ) :
    (tableEntries ys i).Pairwise fun a b => entryKeyLe a b :=
  List.pairwise_mergeSort entryKeyLe_trans entryKeyLe_total _

theorem length_tableEntries_le (ys : List ℕ) (i : ℕ) :
    (tableEntries ys i).length ≤ reducedBucketSize := by
  simp [tableEntries]

/-- The buckets of a table built from `ys` (by `Table::create`): bucket `i`
holds the first `REDUCED_BUCKET_SIZE` entries `(position, y)` whose `y` lies
in it, sorted by `(y, position)`, then sentinels; this as long as no position
is the sentinel. -/
theorem sortBuckets_groupByBuckets (k : ℕ) (ys : List ℕ) (fits : ys.length ≤ sentinel) :
    sortBuckets (groupByBuckets k ys) =
      (List.range (numBuckets k)).map fun i => padBucket (tableEntries ys i) := by
  rw [groupByBuckets, sortBuckets, List.map_map]
  refine List.map_congr_left fun i _ => ?_
  simp only [Function.comp_apply, foldl_groupStep]
  refine sortBucket_padBucket fun entry member => ?_
  obtain ⟨bound, -⟩ := List.getElem?_eq_some_iff.mp (mem_entriesInBucket (List.mem_of_mem_take member)).1
  omega

/-- Adjacent buckets of a table meet the contract of `find_matches_in_buckets`. -/
theorem bucketPair_tableEntries (ys : List ℕ) (b : ℕ) :
    BucketPair b (tableEntries ys b) (tableEntries ys (b + 1)) where
  inLeftBucket _ member := (mem_tableEntries member).2
  inRightBucket _ member := (mem_tableEntries member).2
  rightSorted := (tableEntries_pairwise ys (b + 1)).imp fun {a c} le => by
    simp only [entryKeyLe, decide_eq_true_eq] at le
    omega

end Buckets

/-! ## `Table::create` -/

section Create

theorem mem_bucketMatches {leftEntries rightEntries : List (ℕ × ℕ)} {m : Match}
    (member : m ∈ bucketMatches leftEntries rightEntries) :
    ∃ left ∈ leftEntries, ∃ right ∈ rightEntries,
      FindMatchesRelation left.2 right.2 ∧ m = ⟨left.1, left.2, right.1⟩ := by
  obtain ⟨left, memLeft, here⟩ := List.mem_flatMap.mp member
  obtain ⟨right, kept, rfl⟩ := List.mem_map.mp here
  obtain ⟨memRight, related⟩ := List.mem_filter.mp kept
  exact ⟨left, memLeft, right, memRight, by simpa using related, rfl⟩

/-- The windows of a list over `0, …, n - 1`, numbered. -/
theorem zipIdx_zip_tail_map_range {α : Type*} (f : ℕ → α) (n : ℕ) :
    (((List.range n).map f).zip ((List.range n).map f).tail).zipIdx =
      (List.range (n - 1)).map fun b => ((f b, f (b + 1)), b) := by
  apply List.ext_getElem
  · simp
  · intro i _ _
    simp [List.getElem_zipIdx]

/-- The matches `Table::create` keeps of the pair of buckets `b`, `b + 1` of a
table built from `ys`. -/
def keptMatches (ys : List ℕ) (b : ℕ) : List Match :=
  let found := findMatchesInBuckets b (padBucket (tableEntries ys b))
    (padBucket (tableEntries ys (b + 1)))
  found.take (min found.length reducedMatchesCount)

variable (hashes : PosHashes) (k : ℕ)

theorem createResults_eq (tableNumber : ℕ) {parentTable : Table} {ys : List ℕ}
    (built : parentTable.buckets = sortBuckets (groupByBuckets k ys)) (fits : ys.length ≤ sentinel) :
    Table.createResults hashes tableNumber parentTable =
      (List.range (numBuckets k - 1)).flatMap fun b =>
        (keptMatches ys b).map (Table.matchToResult hashes tableNumber parentTable) := by
  rw [Table.createResults, built, sortBuckets_groupByBuckets k ys fits,
    zipIdx_zip_tail_map_range, List.flatMap_map]
  rfl

variable {k}

theorem pair_padBucket_tableEntries {ys : List ℕ} (fits : ys.length ≤ sentinel) (b : ℕ) :
    BucketPair b (bucketEntries (padBucket (tableEntries ys b)))
      (bucketEntries (padBucket (tableEntries ys (b + 1)))) := by
  rw [bucketEntries_padBucket (tableEntries_not_sentinel fits),
    bucketEntries_padBucket (tableEntries_not_sentinel fits)]
  exact bucketPair_tableEntries ys b

/-- A bucket repeats a `y` at most as often as the whole table does. -/
theorem length_filter_tableEntries_le (ys : List ℕ) (i y : ℕ) :
    ((tableEntries ys i).filter (·.2 = y)).length ≤ ys.count y := by
  rw [← List.countP_eq_length_filter]
  calc (tableEntries ys i).countP (fun entry => entry.2 = y)
      = ((entriesInBucket ys.zipIdx i).take reducedBucketSize).countP
          (fun entry => entry.2 = y) := (List.mergeSort_perm _ _).countP_eq _
    _ ≤ (entriesInBucket ys.zipIdx i).countP (fun entry => entry.2 = y) :=
        (List.take_sublist _ _).countP_le
    _ ≤ ys.zipIdx.countP (fun yAndPosition => yAndPosition.1 = y) := by
        rw [entriesInBucket, List.countP_map]
        exact (List.filter_sublist).countP_le
    _ = ys.count y := by
        rw [List.count_eq_countP, ← List.zipIdx_map_fst 0 ys, List.countP_map, List.zipIdx_map_fst]
        exact List.countP_congr fun _ _ => by simp

/-- `find_matches_in_buckets` over two adjacent buckets of a table of `ys`
finds a prefix of their matches, stopping short only after
`REDUCED_MATCHES_COUNT`, when no `y` repeats `2 ^ 8` times. -/
theorem findMatchesInBuckets_tableEntries {ys : List ℕ} (fits : ys.length ≤ sentinel)
    (fewRepeats : ∀ y, ys.count y < 2 ^ 8) (b : ℕ) :
    ∃ n, findMatchesInBuckets b (padBucket (tableEntries ys b)) (padBucket (tableEntries ys (b + 1))) =
        (bucketMatches (tableEntries ys b) (tableEntries ys (b + 1))).take n ∧
      (n < (bucketMatches (tableEntries ys b) (tableEntries ys (b + 1))).length →
        reducedMatchesCount ≤ n) := by
  obtain ⟨n, eq, short, -⟩ := findMatchesInBuckets_eq_take b (padBucket (tableEntries ys b))
    (padBucket (tableEntries ys (b + 1)))
  have pair := pair_padBucket_tableEntries fits b
  have fewRight : ∀ y, ((bucketEntries (padBucket (tableEntries ys (b + 1)))).filter
      (·.2 = y)).length < 2 ^ 8 := by
    intro y
    rw [bucketEntries_padBucket (tableEntries_not_sentinel fits)]
    exact lt_of_le_of_lt (length_filter_tableEntries_le ys (b + 1) y) (fewRepeats y)
  have all := List.flatMap_congr fun left memLeft => pair.targetMatches_eq fewRight memLeft
  rw [all, bucketEntries_padBucket (tableEntries_not_sentinel fits),
    bucketEntries_padBucket (tableEntries_not_sentinel fits)] at eq short
  exact ⟨n, eq, short⟩

/-- What `Table::create` keeps of a pair of adjacent buckets is their first
`REDUCED_MATCHES_COUNT` matches: the cut at the buffer's end never loses one
of them. -/
theorem keptMatches_eq_take {ys : List ℕ} (fits : ys.length ≤ sentinel)
    (fewRepeats : ∀ y, ys.count y < 2 ^ 8) (b : ℕ) :
    keptMatches ys b =
      (bucketMatches (tableEntries ys b) (tableEntries ys (b + 1))).take reducedMatchesCount := by
  obtain ⟨n, eq, short⟩ := findMatchesInBuckets_tableEntries fits fewRepeats b
  simp only [keptMatches, eq, List.length_take, List.take_take]
  rw [List.take_eq_take_iff]
  omega

/-- The entries `Table::create` makes from a parent table built from `ys`
(its `y`, parent positions and metadata): for each pair of adjacent buckets,
the first `REDUCED_MATCHES_COUNT` pairs of a left and a right entry in the
relation, in bucket order, each mapped by `compute_fn`. This holds when no
position is the sentinel and no `y` repeats `2 ^ 8` times. -/
theorem table_create_keeps_first_matches (tableNumber : ℕ) {parentTable : Table} {ys : List ℕ}
    (built : parentTable.buckets = sortBuckets (groupByBuckets k ys)) (fits : ys.length ≤ sentinel)
    (fewRepeats : ∀ y, ys.count y < 2 ^ 8) :
    Table.createResults hashes tableNumber parentTable =
      (List.range (numBuckets k - 1)).flatMap fun b =>
        ((bucketMatches (tableEntries ys b) (tableEntries ys (b + 1))).take reducedMatchesCount).map
          (Table.matchToResult hashes tableNumber parentTable) := by
  rw [createResults_eq hashes k tableNumber built fits]
  exact List.flatMap_congr fun b _ => by rw [keptMatches_eq_take fits fewRepeats b]

/-- A first table of `K = 15` that holds `0` in bucket `0`, and in bucket `1` two values at
targets of `0` and one that is not: the pair of buckets `0` and `1` has two matches, which
`Table::create` keeps. -/
theorem table_create_keeps_first_matches_k_fifteen :
    let ys := [0, paramBC, paramBC + 1, paramBC + 131]
    let parentTable := Table.first (sortBuckets (groupByBuckets 15 ys))
    bucketMatches (tableEntries ys 0) (tableEntries ys 1) = [⟨0, 0, 1⟩, ⟨0, 0, 3⟩] ∧
    Table.createResults zeroHashes 2 parentTable =
      (List.range (numBuckets 15 - 1)).flatMap fun b =>
        ((bucketMatches (tableEntries ys b) (tableEntries ys (b + 1))).take reducedMatchesCount).map
          (Table.matchToResult zeroHashes 2 parentTable) := by
  intro ys parentTable
  have left : tableEntries ys 0 = [(0, 0)] := by
    simp [ys, tableEntries, entriesInBucket, paramBC, paramB, paramC, reducedBucketSize,
      maxBucketSize]
  have right : tableEntries ys 1 = [(1, paramBC), (2, paramBC + 1), (3, paramBC + 131)] := by
    simp [ys, tableEntries, entriesInBucket, paramBC, paramB, paramC, reducedBucketSize,
      maxBucketSize, List.mergeSort_of_pairwise, entryKeyLe]
  refine ⟨by rw [left, right]; decide, ?_⟩
  exact table_create_keeps_first_matches zeroHashes 2 rfl (by simp [ys, sentinel])
    fun _ => lt_of_le_of_lt List.count_le_length (by simp [ys])

/-- Every entry `Table::create` makes from a parent table built from `ys`
records two parent positions whose `y`s are in the relation, and is
`compute_fn` of them: the table never holds a pair the verifier's `has_match`
would reject. -/
theorem mem_createResults (tableNumber : ℕ) {parentTable : Table} {ys : List ℕ}
    (built : parentTable.buckets = sortBuckets (groupByBuckets k ys)) (fits : ys.length ≤ sentinel)
    {result : ℕ × (ℕ × ℕ) × ℕ} (member : result ∈ Table.createResults hashes tableNumber parentTable) :
    ∃ leftPosition rightPosition leftY rightY,
      result.2.1 = (leftPosition, rightPosition) ∧
      ys[leftPosition]? = some leftY ∧ ys[rightPosition]? = some rightY ∧
      FindMatchesRelation leftY rightY ∧
      (result.1, result.2.2) = hashes.computeFn tableNumber leftY
        (parentTable.metadata leftPosition) (parentTable.metadata rightPosition) := by
  rw [createResults_eq hashes k tableNumber built fits] at member
  obtain ⟨b, -, kept⟩ := List.mem_flatMap.mp member
  obtain ⟨m, memKept, rfl⟩ := List.mem_map.mp kept
  have found := (pair_padBucket_tableEntries fits b).mem_bucketMatches (List.mem_of_mem_take memKept)
  rw [bucketEntries_padBucket (tableEntries_not_sentinel fits),
    bucketEntries_padBucket (tableEntries_not_sentinel fits)] at found
  obtain ⟨left, memLeft, right, memRight, related, rfl⟩ := mem_bucketMatches found
  exact ⟨left.1, right.1, left.2, right.2, rfl, (mem_tableEntries memLeft).1,
    (mem_tableEntries memRight).1, related, rfl⟩

end Create

end Subspace.ProofOfSpace
