import Subspace.ProofOfSpace.Parallel
import Subspace.ProofOfSpace.TablesSpec

/-!
# The tables built in parallel give the same proofs

`Table::create_parallel` numbers the results of a table by rows: the result
at index `j` of the row of the pair of buckets `i` has position
`i · REDUCED_MATCHES_COUNT + j`, where `Table::create` numbers all results
one after the other. Nothing else differs, and the matching code uses a
position only to compare it with the sentinel and to carry it along. So each
table built in parallel is the one built in sequence with its positions
renamed (`Simulates`), and `find_proof`, which follows the positions down to
the `x`s of table `1`, gives the same proofs on both.

1. Renaming the positions of two buckets renames those of their matches
   (`findMatchesInBuckets_rename`); the `Rmap` carries positions without
   reading them.
2. `sortBuckets_groupByBucketsFromBuckets`: the buckets of a table built in
   parallel are those built in sequence from the same `y`s, each position
   moved to its slot. The slots keep the order of the positions, so sorting
   by `(y, position)` orders the entries alike.
3. `Simulates.create`: building the next table keeps the relation, the next
   renaming being the slots of the new rows (`parallelPosition`).
4. `find_proof_parallel_eq_find_proof`.
-/

namespace Subspace.ProofOfSpace

open Lib

/-! ## Renaming positions -/

/-- A match with its positions renamed. -/
def Match.rename (g : ℕ → ℕ) (m : Match) : Match :=
  ⟨g m.leftPosition, m.leftY, g m.rightPosition⟩

/-- A renaming keeps the sentinel apart from the positions of a bucket: it
maps the sentinel, and only the sentinel, to the sentinel. -/
def KeepsSentinel (g : ℕ → ℕ) (bucket : List (ℕ × ℕ)) : Prop :=
  ∀ entry ∈ bucket, g entry.1 = sentinel ↔ entry.1 = sentinel

/-- An `Rmap` with the positions it holds renamed. -/
def Rmap.renamePositions (g : ℕ → ℕ) (rmap : Rmap) : Rmap :=
  { rmap with positions := g ∘ rmap.positions }

section Rename

variable {g : ℕ → ℕ}

theorem KeepsSentinel.of_cons {entry : ℕ × ℕ} {bucket : List (ℕ × ℕ)}
    (keeps : KeepsSentinel g (entry :: bucket)) : KeepsSentinel g bucket :=
  fun other member => keeps other (List.mem_cons_of_mem _ member)

theorem Rmap.renamePositions_new (fixed : g sentinel = sentinel) : Rmap.new.renamePositions g = Rmap.new := by
  simp [Rmap.renamePositions, Rmap.new, Function.comp_def, fixed]

theorem Rmap.add_renamePositions (rmap : Rmap) (r p : ℕ) :
    (rmap.renamePositions g).add r (g p) = (rmap.add r p).renamePositions g := by
  by_cases fresh : rmap.virtualPointers r = 0 <;>
    simp [Rmap.add, Rmap.renamePositions, fresh, Function.comp_update]

theorem Rmap.get_renamePositions (rmap : Rmap) (r : ℕ) :
    (rmap.renamePositions g).get r = (rmap.get r).map g := by
  by_cases fresh : rmap.virtualPointers r = 0 <;> simp [Rmap.get, Rmap.renamePositions, fresh]

theorem addRightBucket_rename (rightBase : ℕ) {bucket : List (ℕ × ℕ)} (keeps : KeepsSentinel g bucket)
    (rmap : Rmap) :
    addRightBucket rightBase (bucket.map (Prod.map g id)) (rmap.renamePositions g) =
      (addRightBucket rightBase bucket rmap).renamePositions g := by
  induction bucket generalizing rmap with
  | nil => rfl
  | cons entry bucket ih =>
    obtain ⟨p, y⟩ := entry
    have here : g p = sentinel ↔ p = sentinel := keeps (p, y) List.mem_cons_self
    simp only [List.map_cons, Prod.map, id, addRightBucket]
    by_cases stop : p = sentinel
    · rw [if_pos (here.mpr stop), if_pos stop]
    · rw [if_neg (mt here.mp stop), if_neg stop, Rmap.add_renamePositions, ih keeps.of_cons]

theorem matchRightPositions_rename (leftPosition y : ℕ) (rightPositions : List ℕ) (found : List Match) :
    matchRightPositions (g leftPosition) y (rightPositions.map g) (found.map (Match.rename g)) =
      (matchRightPositions leftPosition y rightPositions found).map (Match.rename g) := by
  induction rightPositions generalizing found with
  | nil => rfl
  | cons rightPosition rest ih =>
    simp only [List.map_cons, matchRightPositions, List.length_map]
    by_cases full : matchesBufferSize ≤ found.length
    · rw [if_pos full, if_pos full]
    · have appended : found.map (Match.rename g) ++ [Match.mk (g leftPosition) y (g rightPosition)] =
          (found ++ [Match.mk leftPosition y rightPosition]).map (Match.rename g) := by
        simp [Match.rename]
      rw [if_neg full, if_neg full, appended, ih]

theorem foldl_matchRightPositions_rename (rmap : Rmap) (leftPosition y : ℕ) (targets : List ℕ)
    (found : List Match) :
    targets.foldl (fun found rTarget =>
        matchRightPositions (g leftPosition) y ((rmap.renamePositions g).get rTarget) found)
      (found.map (Match.rename g)) =
      (targets.foldl (fun found rTarget => matchRightPositions leftPosition y (rmap.get rTarget) found)
        found).map (Match.rename g) := by
  induction targets generalizing found with
  | nil => rfl
  | cons target targets ih =>
    rw [List.foldl_cons, List.foldl_cons, Rmap.get_renamePositions, matchRightPositions_rename, ih]

theorem matchLeftBucket_rename (rmap : Rmap) (leftBase parity : ℕ) {bucket : List (ℕ × ℕ)}
    (keeps : KeepsSentinel g bucket) (found : List Match) :
    matchLeftBucket (rmap.renamePositions g) leftBase parity (bucket.map (Prod.map g id))
        (found.map (Match.rename g)) =
      (matchLeftBucket rmap leftBase parity bucket found).map (Match.rename g) := by
  induction bucket generalizing found with
  | nil => rfl
  | cons entry bucket ih =>
    obtain ⟨p, y⟩ := entry
    have here : g p = sentinel ↔ p = sentinel := keeps (p, y) List.mem_cons_self
    simp only [List.map_cons, Prod.map, id, matchLeftBucket, List.length_map]
    by_cases stop : p = sentinel ∨ reducedMatchesCount ≤ found.length
    · rw [if_pos (by rwa [here]), if_pos stop]
    · rw [if_neg (by rwa [here]), if_neg stop, foldl_matchRightPositions_rename, ih keeps.of_cons]

/-- Matching two buckets whose positions are renamed gives the matches of the
buckets with their positions renamed. -/
theorem findMatchesInBuckets_rename (fixed : g sentinel = sentinel) (b : ℕ)
    {leftBucket rightBucket : List (ℕ × ℕ)} (keepsLeft : KeepsSentinel g leftBucket)
    (keepsRight : KeepsSentinel g rightBucket) :
    findMatchesInBuckets b (leftBucket.map (Prod.map g id)) (rightBucket.map (Prod.map g id)) =
      (findMatchesInBuckets b leftBucket rightBucket).map (Match.rename g) := by
  have indexed : addRightBucket (b * paramBC + paramBC) (rightBucket.map (Prod.map g id)) Rmap.new =
      (addRightBucket (b * paramBC + paramBC) rightBucket Rmap.new).renamePositions g := by
    conv_lhs => rw [← Rmap.renamePositions_new fixed]
    exact addRightBucket_rename _ keepsRight _
  simp only [findMatchesInBuckets]
  rw [indexed]
  exact matchLeftBucket_rename _ _ _ keepsLeft []

theorem takeWhile_map_rename {bucket : List (ℕ × ℕ)} (keeps : KeepsSentinel g bucket) :
    (bucket.map (Prod.map g id)).takeWhile (fun entry => entry.1 ≠ sentinel) =
      (bucket.takeWhile fun entry => entry.1 ≠ sentinel).map (Prod.map g id) := by
  induction bucket with
  | nil => rfl
  | cons entry bucket ih =>
    have here := keeps entry List.mem_cons_self
    rw [List.map_cons, List.takeWhile_cons, List.takeWhile_cons]
    by_cases stop : entry.1 = sentinel
    · have renamedStop : (Prod.map g id entry).1 = sentinel := here.mpr stop
      rw [if_neg (by simpa using renamedStop), if_neg (by simpa using stop), List.map_nil]
    · have renamedGoes : (Prod.map g id entry).1 ≠ sentinel := mt here.mp stop
      rw [if_pos (by simpa using renamedGoes), if_pos (by simpa using stop), List.map_cons,
        ih keeps.of_cons]

end Rename

/-! ## The buckets of a table built in parallel -/

section Buckets

/-- The position `Table::create_parallel` gives the result that
`Table::create` puts at position `p`, for rows of results of the lengths
`counts`; the sentinel stays the sentinel. -/
def parallelPosition (counts : List ℕ) (p : ℕ) : ℕ :=
  if p = sentinel then sentinel else stridedIndex reducedMatchesCount counts p

theorem parallelPosition_sentinel (counts : List ℕ) : parallelPosition counts sentinel = sentinel :=
  if_pos rfl

theorem entriesInBucket_map_position (yAndPositions : List (ℕ × ℕ)) (φ : ℕ → ℕ) (i : ℕ) :
    entriesInBucket (yAndPositions.map (Prod.map id φ)) i =
      (entriesInBucket yAndPositions i).map (Prod.map φ id) := by
  simp only [entriesInBucket, List.filter_map, List.map_map]
  rfl

/-- `group_by_buckets_from_buckets` keeps in each bucket the entries
`group_by_buckets` keeps from the whole list of `y`s, each position moved to
its slot. -/
theorem groupByBucketsFromBuckets_eq (k : ℕ) (rows : List (List ℕ)) :
    groupByBucketsFromBuckets k rows = (List.range (numBuckets k)).map fun i =>
      padBucket (((entriesInBucket rows.flatten.zipIdx i).take reducedBucketSize).map
        (Prod.map (stridedIndex reducedMatchesCount (rows.map List.length)) id)) := by
  have general : rows.flatten.zipIdx.map (Prod.map id fun d =>
        0 * reducedMatchesCount + stridedIndex reducedMatchesCount (rows.map List.length) d) =
      (rows.zipIdx 0).flatMap fun row => row.1.zipIdx (row.2 * reducedMatchesCount) :=
    zipIdx_flatten 0
  simp only [Nat.zero_mul, Nat.zero_add] at general
  dsimp only [groupByBucketsFromBuckets]
  rw [← List.foldl_flatMap, ← general]
  refine List.map_congr_left fun i _ => ?_
  rw [foldl_groupStep, entriesInBucket_map_position, List.map_take]

theorem entryKeyLe_antisymm (a b : ℕ × ℕ) (ab : entryKeyLe a b) (ba : entryKeyLe b a) : a = b := by
  simp only [entryKeyLe, decide_eq_true_eq] at ab ba
  ext <;> omega

/-- The buckets of a table built in parallel from rows of `y`s: those of the
table built in sequence from all the `y`s, with each position moved to its
slot. The slots keep the order of the positions, so the sort puts the moved
entries in the same order. -/
theorem sortBuckets_groupByBucketsFromBuckets (k : ℕ) {rows : List (List ℕ)}
    (fit : ∀ row ∈ rows, row.length ≤ reducedMatchesCount)
    (bound : rows.length * reducedMatchesCount ≤ sentinel) :
    sortBuckets (groupByBucketsFromBuckets k rows) = (List.range (numBuckets k)).map fun i =>
      padBucket ((tableEntries rows.flatten i).map
        (Prod.map (stridedIndex reducedMatchesCount (rows.map List.length)) id)) := by
  have fitCounts : ∀ count ∈ rows.map List.length, count ≤ reducedMatchesCount := by
    intro count member
    obtain ⟨row, inRows, rfl⟩ := List.mem_map.mp member
    exact fit row inRows
  have increasing := strictMono_stridedIndex fitCounts
  have slotLt : ∀ d < rows.flatten.length,
      stridedIndex reducedMatchesCount (rows.map List.length) d < sentinel := by
    intro d within
    rw [List.length_flatten] at within
    have below := stridedIndex_lt fitCounts within
    rw [List.length_map] at below
    omega
  have agree : ∀ a b : ℕ × ℕ,
      entryKeyLe (Prod.map (stridedIndex reducedMatchesCount (rows.map List.length)) id a)
        (Prod.map (stridedIndex reducedMatchesCount (rows.map List.length)) id b) = entryKeyLe a b := by
    intro a b
    simp [entryKeyLe, increasing.le_iff_le]
  rw [groupByBucketsFromBuckets_eq, sortBuckets, List.map_map]
  refine List.map_congr_left fun i _ => ?_
  rw [Function.comp_apply, sortBucket_padBucket, tableEntries,
    Lib.mergeSort_map_of_agree entryKeyLe entryKeyLe _ entryKeyLe_trans entryKeyLe_total
      entryKeyLe_trans entryKeyLe_total entryKeyLe_antisymm fun a _ b _ => agree a b]
  -- no moved entry is at the sentinel
  intro entry member
  obtain ⟨⟨d, y⟩, kept, rfl⟩ := List.mem_map.mp member
  obtain ⟨bound, -⟩ := List.getElem?_eq_some_iff.mp (mem_entriesInBucket (List.mem_of_mem_take kept)).1
  exact Nat.ne_of_lt (slotLt d bound)

theorem padBucket_map_parallelPosition {bucket : List (ℕ × ℕ)}
    (noSentinel : ∀ entry ∈ bucket, entry.1 ≠ sentinel) (counts : List ℕ) :
    padBucket (bucket.map (Prod.map (stridedIndex reducedMatchesCount counts) id)) =
      (padBucket bucket).map (Prod.map (parallelPosition counts) id) := by
  have moved : bucket.map (Prod.map (stridedIndex reducedMatchesCount counts) id) =
      bucket.map (Prod.map (parallelPosition counts) id) :=
    List.map_congr_left fun entry member =>
      Prod.ext (by simp [parallelPosition, noSentinel entry member]) rfl
  simp [padBucket, moved, parallelPosition_sentinel]

end Buckets

/-! ## One table after the other -/

section Simulation

variable (k : ℕ)

/-- The table `Table::create_parallel` builds, `par`, is the one
`Table::create` builds, `seq`, with the positions of its entries renamed by
`g` and the parent positions they hold renamed by `gParent`. -/
structure Simulates (seq : Table) (par : ParallelTable) (g gParent : ℕ → ℕ) : Prop where
  length_buckets : seq.buckets.length = numBuckets k
  buckets : par.buckets = seq.buckets.map (List.map (Prod.map g id))
  metadata : ∀ p, par.metadata (g p) = seq.metadata p
  position : ∀ p, par.position (g p) = (seq.position p).map (Prod.map gParent gParent)
  fixed : g sentinel = sentinel
  keeps : ∀ bucket ∈ seq.buckets, KeepsSentinel g bucket

variable (hashes : PosHashes)

theorem simulates_createFirst :
    Simulates k (Table.createFirst hashes k) (ParallelTable.createFirst hashes k) id id where
  length_buckets := by simp [Table.createFirst, Table.buckets, sortBuckets, groupByBuckets]
  buckets := by simp [Table.createFirst, ParallelTable.createFirst, Table.buckets, ParallelTable.buckets]
  metadata _ := rfl
  position _ := rfl
  fixed := rfl
  keeps _ _ _ _ := Iff.rfl

/-- The rows of results `Table::create` computes, one for each pair of
adjacent buckets; its results are their concatenation. -/
def resultRows (tableNumber : ℕ) (parentTable : Table) : List (List (ℕ × (ℕ × ℕ) × ℕ)) :=
  let buckets := parentTable.buckets
  (buckets.zip buckets.tail).zipIdx.map fun window =>
    let found := findMatchesInBuckets window.2 window.1.1 window.1.2
    let found := found.take (min found.length reducedMatchesCount)
    found.map (Table.matchToResult hashes tableNumber parentTable)

/-- A result with the parent positions it holds renamed. -/
def renameResult (g : ℕ → ℕ) (result : ℕ × (ℕ × ℕ) × ℕ) : ℕ × (ℕ × ℕ) × ℕ :=
  (result.1, Prod.map g g result.2.1, result.2.2)

variable {k hashes}

theorem createResults_eq_flatten (tableNumber : ℕ) (parentTable : Table) :
    Table.createResults hashes tableNumber parentTable =
      (resultRows hashes tableNumber parentTable).flatten := by
  rw [Table.createResults, resultRows, List.flatMap_def]

theorem length_resultRows (tableNumber : ℕ) (parentTable : Table) :
    (resultRows hashes tableNumber parentTable).length = parentTable.buckets.length - 1 := by
  simp [resultRows]

theorem length_le_of_mem_resultRows {tableNumber : ℕ} {parentTable : Table}
    {row : List (ℕ × (ℕ × ℕ) × ℕ)} (member : row ∈ resultRows hashes tableNumber parentTable) :
    row.length ≤ reducedMatchesCount := by
  obtain ⟨window, -, rfl⟩ := List.mem_map.mp member
  simp

theorem map_fst_renameResult (g : ℕ → ℕ) (rows : List (List (ℕ × (ℕ × ℕ) × ℕ))) :
    (rows.map (List.map (renameResult g))).map (List.map (·.1)) = rows.map (List.map (·.1)) := by
  simp [Function.comp_def, renameResult]

theorem map_metadata_renameResult (g : ℕ → ℕ) (rows : List (List (ℕ × (ℕ × ℕ) × ℕ))) :
    (rows.map (List.map (renameResult g))).map (List.map (·.2.2)) = rows.map (List.map (·.2.2)) := by
  simp [Function.comp_def, renameResult]

theorem map_positions_renameResult (g : ℕ → ℕ) (rows : List (List (ℕ × (ℕ × ℕ) × ℕ))) :
    (rows.map (List.map (renameResult g))).map (List.map (·.2.1)) =
      (rows.map (List.map (·.2.1))).map (List.map (Prod.map g g)) := by
  simp [Function.comp_def, renameResult]

/-- `for K ≤ 25` the rows of a table fit below the sentinel. -/
theorem windows_bound (small : k ≤ 25) : (numBuckets k - 1) * reducedMatchesCount ≤ sentinel :=
  calc (numBuckets k - 1) * reducedMatchesCount ≤ (numBuckets 25 - 1) * reducedMatchesCount :=
        Nat.mul_le_mul_right _ (Nat.sub_le_sub_right (numBuckets_le small) 1)
    _ ≤ sentinel := by decide

section Step

variable {seq : Table} {par : ParallelTable} {g gParent : ℕ → ℕ}

/-- The rows `Table::create_parallel` computes are the rows of
`Table::create` with their parent positions renamed. -/
theorem Simulates.createRows_eq (sim : Simulates k seq par g gParent) (tableNumber : ℕ) :
    ParallelTable.createRows hashes tableNumber par =
      (resultRows hashes tableNumber seq).map (List.map (renameResult g)) := by
  dsimp only [ParallelTable.createRows, resultRows]
  rw [sim.buckets, ← List.map_tail, List.zip_map, List.zipIdx_map, List.map_map, List.map_map]
  refine List.map_congr_left fun window member => ?_
  obtain ⟨memLeft, memRight⟩ := List.of_mem_zip (List.fst_mem_of_mem_zipIdx member)
  have keepsLeft := sim.keeps _ memLeft
  have keepsRight := sim.keeps _ (List.mem_of_mem_tail memRight)
  simp only [Function.comp_apply, Prod.map, id]
  rw [findMatchesInBuckets_rename sim.fixed _ keepsLeft keepsRight, List.length_map, ← List.map_take,
    List.map_map, List.map_map]
  refine List.map_congr_left fun m _ => ?_
  simp [ParallelTable.matchToResult, Table.matchToResult, Match.rename, renameResult, sim.metadata]

variable (hashes)

/-- The number of results of the next table fits below the sentinel. -/
theorem Simulates.createResults_length_le (small : k ≤ 25) (sim : Simulates k seq par g gParent)
    (tableNumber : ℕ) : (Table.createResults hashes tableNumber seq).length ≤ sentinel :=
  calc _ ≤ (seq.buckets.length - 1) * reducedMatchesCount := length_createResults_le _ _
    _ ≤ sentinel := by rw [sim.length_buckets]; exact windows_bound small

theorem Simulates.buckets_create (small : k ≤ 25) (sim : Simulates k seq par g gParent) (tableNumber : ℕ) :
    (ParallelTable.create hashes k tableNumber par).buckets =
      (Table.create hashes k tableNumber seq).buckets.map
        (List.map (Prod.map (parallelPosition ((resultRows hashes tableNumber seq).map List.length)) id)) := by
  have fit : ∀ row ∈ (resultRows hashes tableNumber seq).map (List.map (·.1)),
      row.length ≤ reducedMatchesCount := by
    intro row member
    obtain ⟨row, inRows, rfl⟩ := List.mem_map.mp member
    rw [List.length_map]
    exact length_le_of_mem_resultRows inRows
  have rowsBound : ((resultRows hashes tableNumber seq).map (List.map (·.1))).length *
      reducedMatchesCount ≤ sentinel := by
    rw [List.length_map, length_resultRows, sim.length_buckets]
    exact windows_bound small
  have ys : ((resultRows hashes tableNumber seq).map (List.map (·.1))).flatten =
      (Table.createResults hashes tableNumber seq).map (·.1) := by
    rw [createResults_eq_flatten, List.map_flatten]
  have counts : ((resultRows hashes tableNumber seq).map (List.map (·.1))).map List.length =
      (resultRows hashes tableNumber seq).map List.length := by
    simp [Function.comp_def]
  simp only [ParallelTable.create, ParallelTable.buckets, Table.create, Table.buckets]
  rw [sim.createRows_eq, map_fst_renameResult, sortBuckets_groupByBucketsFromBuckets k fit rowsBound, ys,
    counts, sortBuckets_groupByBuckets k _
      (by rw [List.length_map]; exact sim.createResults_length_le hashes small tableNumber),
    List.map_map]
  refine List.map_congr_left fun i _ => ?_
  exact padBucket_map_parallelPosition
    (tableEntries_not_sentinel (by simpa using sim.createResults_length_le hashes small tableNumber)) _

/-- Each result of the next table gets a slot below the sentinel. -/
theorem Simulates.stridedIndex_lt_sentinel (small : k ≤ 25) (sim : Simulates k seq par g gParent)
    (tableNumber : ℕ) {d : ℕ} (within : d < (Table.createResults hashes tableNumber seq).length) :
    stridedIndex reducedMatchesCount ((resultRows hashes tableNumber seq).map List.length) d < sentinel := by
  have fitCounts : ∀ count ∈ (resultRows hashes tableNumber seq).map List.length,
      count ≤ reducedMatchesCount := by
    intro count member
    obtain ⟨row, inRows, rfl⟩ := List.mem_map.mp member
    exact length_le_of_mem_resultRows inRows
  rw [createResults_eq_flatten, List.length_flatten] at within
  have below := stridedIndex_lt fitCounts within
  rw [List.length_map, length_resultRows, sim.length_buckets] at below
  exact lt_of_lt_of_le below (windows_bound small)

/-- The rows of the next table are fewer than the slot of the sentinel's row. -/
theorem Simulates.length_resultRows_le (small : k ≤ 25) (sim : Simulates k seq par g gParent)
    (tableNumber : ℕ) : (resultRows hashes tableNumber seq).length ≤ sentinel / reducedMatchesCount := by
  rw [length_resultRows, sim.length_buckets]
  exact (Nat.le_div_iff_mul_le (by decide)).mpr (windows_bound small)

theorem Simulates.metadata_create (small : k ≤ 25) (sim : Simulates k seq par g gParent)
    (tableNumber p : ℕ) :
    (ParallelTable.create hashes k tableNumber par).metadata
        (parallelPosition ((resultRows hashes tableNumber seq).map List.length) p) =
      (Table.create hashes k tableNumber seq).metadata p := by
  have counts : ((resultRows hashes tableNumber seq).map (List.map (·.2.2))).map List.length =
      (resultRows hashes tableNumber seq).map List.length := by
    simp [Function.comp_def]
  have fit : ∀ row ∈ (resultRows hashes tableNumber seq).map (List.map (·.2.2)),
      row.length ≤ reducedMatchesCount := by
    intro row member
    obtain ⟨row, inRows, rfl⟩ := List.mem_map.mp member
    rw [List.length_map]
    exact length_le_of_mem_resultRows inRows
  simp only [ParallelTable.create, ParallelTable.metadata, Table.create, Table.metadata]
  rw [sim.createRows_eq, map_metadata_renameResult, createResults_eq_flatten, List.map_flatten]
  by_cases atSentinel : p = sentinel
  · -- neither table holds anything at the sentinel
    have fewResults := sim.createResults_length_le hashes small tableNumber
    rw [createResults_eq_flatten] at fewResults
    subst atSentinel
    rw [parallelPosition_sentinel, rowSlot_eq_none (by simpa using sim.length_resultRows_le hashes small tableNumber),
      List.getD_eq_default _ _ (by simpa [← List.map_flatten] using fewResults)]
    rfl
  · rw [parallelPosition, if_neg atSentinel, ← counts, rowSlot_stridedIndex (by decide) fit,
      List.getD_eq_getElem?_getD]

theorem Simulates.position_create (small : k ≤ 25) (sim : Simulates k seq par g gParent)
    (tableNumber p : ℕ) :
    (ParallelTable.create hashes k tableNumber par).position
        (parallelPosition ((resultRows hashes tableNumber seq).map List.length) p) =
      ((Table.create hashes k tableNumber seq).position p).map (Prod.map g g) := by
  have counts : ((resultRows hashes tableNumber seq).map (List.map (·.2.1))).map List.length =
      (resultRows hashes tableNumber seq).map List.length := by
    simp [Function.comp_def]
  have fit : ∀ row ∈ (resultRows hashes tableNumber seq).map (List.map (·.2.1)),
      row.length ≤ reducedMatchesCount := by
    intro row member
    obtain ⟨row, inRows, rfl⟩ := List.mem_map.mp member
    rw [List.length_map]
    exact length_le_of_mem_resultRows inRows
  simp only [ParallelTable.create, ParallelTable.position, Table.create, Table.position]
  rw [sim.createRows_eq, map_positions_renameResult, rowSlot_map, createResults_eq_flatten,
    List.map_flatten]
  by_cases atSentinel : p = sentinel
  · -- neither table holds anything at the sentinel
    have fewResults := sim.createResults_length_le hashes small tableNumber
    rw [createResults_eq_flatten] at fewResults
    subst atSentinel
    rw [parallelPosition_sentinel, rowSlot_eq_none (by simpa using sim.length_resultRows_le hashes small tableNumber),
      List.getElem?_eq_none (by simpa [← List.map_flatten] using fewResults)]
  · rw [parallelPosition, if_neg atSentinel, ← counts, rowSlot_stridedIndex (by decide) fit]

theorem Simulates.keeps_create (small : k ≤ 25) (sim : Simulates k seq par g gParent) (tableNumber : ℕ) :
    ∀ bucket ∈ (Table.create hashes k tableNumber seq).buckets,
      KeepsSentinel (parallelPosition ((resultRows hashes tableNumber seq).map List.length)) bucket := by
  have fits := sim.createResults_length_le hashes small tableNumber
  intro bucket member entry inBucket
  simp only [Table.create, Table.buckets] at member
  rw [sortBuckets_groupByBuckets k _ (by rw [List.length_map]; exact fits)] at member
  obtain ⟨i, -, rfl⟩ := List.mem_map.mp member
  rcases List.mem_append.mp inBucket with inEntries | padding
  · -- an entry of the table: its position is below the number of results
    obtain ⟨below, -⟩ := List.getElem?_eq_some_iff.mp (mem_tableEntries inEntries).1
    rw [List.length_map] at below
    have slot := sim.stridedIndex_lt_sentinel hashes small tableNumber below
    have notSentinel : entry.1 ≠ sentinel := by omega
    rw [parallelPosition, if_neg notSentinel]
    exact ⟨fun atSentinel => absurd atSentinel (Nat.ne_of_lt slot), fun atSentinel => absurd atSentinel notSentinel⟩
  · rw [List.eq_of_mem_replicate padding, parallelPosition_sentinel]

/-- Building the next table in parallel keeps the relation: its positions
are the slots of the rows of results. -/
theorem Simulates.create (small : k ≤ 25) (sim : Simulates k seq par g gParent) (tableNumber : ℕ) :
    Simulates k (Table.create hashes k tableNumber seq) (ParallelTable.create hashes k tableNumber par)
      (parallelPosition ((resultRows hashes tableNumber seq).map List.length)) g where
  length_buckets := by simp [Table.create, Table.buckets, sortBuckets, groupByBuckets]
  buckets := sim.buckets_create hashes small tableNumber
  metadata := sim.metadata_create hashes small tableNumber
  position := sim.position_create hashes small tableNumber
  fixed := parallelPosition_sentinel _
  keeps := sim.keeps_create hashes small tableNumber

end Step

end Simulation

/-! ## From table `1` to table `7` -/

section Chain

variable (hashes : PosHashes) (k : ℕ)

/-- The table of height `h` as `TablesGeneric::create_parallel` builds it. -/
def parallelTableAt : ℕ → ParallelTable
  | 0 => ParallelTable.createFirst hashes k
  | h + 1 => ParallelTable.create hashes k (h + 2) (parallelTableAt h)

/-- Where the table of height `h` built in parallel puts the entry at each
position of the one built in sequence. -/
def renamingAt : ℕ → ℕ → ℕ
  | 0 => id
  | h + 1 => parallelPosition ((resultRows hashes (h + 2) (tableAt hashes k h)).map List.length)

/-- The positions `find_proof_internal` reaches on the tables built in
parallel, as `positionsBelow` on those built in sequence. -/
def parallelPositionsBelow : ℕ → List ℕ → Option (List ℕ)
  | 0, positions => some positions
  | h + 1, positions =>
    (ParallelTables.parentPositions (parallelTableAt hashes k (h + 1)).prune positions).bind
      (parallelPositionsBelow h)

theorem parallelTables_create_eq : ParallelTables.create hashes k =
    { table2 := (parallelTableAt hashes k 1).prune
      table3 := (parallelTableAt hashes k 2).prune
      table4 := (parallelTableAt hashes k 3).prune
      table5 := (parallelTableAt hashes k 4).prune
      table6 := (parallelTableAt hashes k 5).prune
      table7 := parallelTableAt hashes k 6 } := rfl

theorem proofXs_parallelTables_create (table6ProofTargets : ℕ × ℕ) :
    (ParallelTables.create hashes k).proofXs table6ProofTargets =
      parallelPositionsBelow hashes k 5 [table6ProofTargets.1, table6ProofTargets.2] := by
  simp [ParallelTables.proofXs, parallelTables_create_eq, parallelPositionsBelow]

variable {hashes k}

theorem simulates_tableAt (small : k ≤ 25) :
    ∀ h, ∃ gParent, Simulates k (tableAt hashes k h) (parallelTableAt hashes k h) (renamingAt hashes k h) gParent
  | 0 => ⟨id, simulates_createFirst k hashes⟩
  | h + 1 => by
    obtain ⟨_, sim⟩ := simulates_tableAt small h
    exact ⟨renamingAt hashes k h, sim.create hashes small (h + 2)⟩

theorem simulates_tableAt_succ (small : k ≤ 25) (h : ℕ) :
    Simulates k (tableAt hashes k (h + 1)) (parallelTableAt hashes k (h + 1))
      (renamingAt hashes k (h + 1)) (renamingAt hashes k h) := by
  obtain ⟨_, sim⟩ := simulates_tableAt small h
  exact sim.create hashes small (h + 2)

theorem parentPositions_rename {rows : List (List (ℕ × ℕ))} {positions : List (ℕ × ℕ)} {g gParent : ℕ → ℕ}
    (agree : ∀ p, rowSlot reducedMatchesCount rows (g p) = positions[p]?.map (Prod.map gParent gParent))
    (ps : List ℕ) :
    ParallelTables.parentPositions rows (ps.map g) =
      (Tables.parentPositions positions ps).map (List.map gParent) := by
  induction ps with
  | nil => rfl
  | cons p ps ih =>
    simp only [List.map_cons, ParallelTables.parentPositions, Tables.parentPositions, agree, ih]
    cases positions[p]? <;> cases Tables.parentPositions positions ps <;> rfl

/-- Following renamed positions down the tables built in parallel reaches the
positions of table `1` that following them down the tables built in sequence
reaches. The induction is on the height; table `1` has the same positions in
both. -/
theorem parallelPositionsBelow_map (small : k ≤ 25) :
    ∀ h ps, parallelPositionsBelow hashes k h (ps.map (renamingAt hashes k h)) = positionsBelow hashes k h ps
  | 0, ps => by simp [parallelPositionsBelow, positionsBelow, renamingAt]
  | h + 1, ps => by
    have agree : ∀ p, rowSlot reducedMatchesCount (parallelTableAt hashes k (h + 1)).prune
        (renamingAt hashes k (h + 1) p) =
          (tableAt hashes k (h + 1)).prune[p]?.map (Prod.map (renamingAt hashes k h) (renamingAt hashes k h)) :=
      (simulates_tableAt_succ small h).position
    rw [parallelPositionsBelow, positionsBelow, parentPositions_rename agree]
    cases Tables.parentPositions (tableAt hashes k (h + 1)).prune ps with
    | none => rfl
    | some below =>
      rw [Option.map_some, Option.bind_some, Option.bind_some]
      exact parallelPositionsBelow_map small h below

theorem bind_findProofInternal_parallel (small : k ≤ 25) (p : ℕ) :
    ((parallelTableAt hashes k 6).position (renamingAt hashes k 6 p)).bind
        ((ParallelTables.create hashes k).findProofInternal k) =
      ((tableAt hashes k 6).position p).bind ((Tables.create hashes k).findProofInternal k) := by
  have sim : Simulates k (tableAt hashes k 6) (parallelTableAt hashes k 6) (renamingAt hashes k 6)
      (renamingAt hashes k 5) := simulates_tableAt_succ small 5
  rw [sim.position p]
  cases (tableAt hashes k 6).position p with
  | none => rfl
  | some pair =>
    simp only [Option.map_some, Option.bind_some, ParallelTables.findProofInternal,
      Tables.findProofInternal, proofXs_parallelTables_create, proofXs_create, Prod.map_fst, Prod.map_snd]
    rw [show [renamingAt hashes k 5 pair.1, renamingAt hashes k 5 pair.2] =
      [pair.1, pair.2].map (renamingAt hashes k 5) from rfl, parallelPositionsBelow_map small]

/-- `find_proof` on the tables `TablesGeneric::create_parallel` builds gives
the proofs it gives on those `TablesGeneric::create` builds, in the same
order, for every challenge. -/
theorem find_proof_parallel_eq_find_proof (small : k ≤ 25) (firstChallengeBytes : List ℕ) :
    (ParallelTables.create hashes k).findProof k firstChallengeBytes =
      (Tables.create hashes k).findProof k firstChallengeBytes := by
  have sim : Simulates k (tableAt hashes k 6) (parallelTableAt hashes k 6) (renamingAt hashes k 6)
      (renamingAt hashes k 5) := simulates_tableAt_succ small 5
  simp only [ParallelTables.findProof, Tables.findProof]
  rw [show (ParallelTables.create hashes k).table7 = parallelTableAt hashes k 6 from rfl,
    show (Tables.create hashes k).table7 = tableAt hashes k 6 from rfl, sim.buckets, ← List.map_drop,
    ← List.map_take, List.flatMap_map]
  refine List.flatMap_congr fun bucket member => ?_
  have keeps := sim.keeps bucket (List.mem_of_mem_drop (List.mem_of_mem_take member))
  rw [takeWhile_map_rename keeps, List.filter_map, List.map_map]
  refine List.map_congr_left fun entry _ => ?_
  exact bind_findProofInternal_parallel small entry.1

theorem find_proof_parallel_eq_k_twenty :
    20 ≤ 25 ∧ (ParallelTables.create zeroHashes 20).findProof 20 [0, 0, 0, 0] =
      (Tables.create zeroHashes 20).findProof 20 [0, 0, 0, 0] :=
  ⟨by decide, find_proof_parallel_eq_find_proof (by decide) [0, 0, 0, 0]⟩

end Chain

end Subspace.ProofOfSpace
