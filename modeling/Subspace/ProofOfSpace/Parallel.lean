import Subspace.ProofOfSpace.Tables
import Subspace.Lib.Rows

/-!
# Building the tables in parallel

`Table::create_parallel` and `TablesGeneric::create_parallel` build the
tables with the pairs of adjacent buckets matched in parallel. The results of
pair `i` go to row `i` of `REDUCED_MATCHES_COUNT` slots (`Table::OtherBuckets`),
the count of each row beside it. A result's position is its row's first slot
plus its index in the row, where `Table::create` numbers all results one after
the other. `group_by_buckets_from_buckets` reads the `y`s row by row with those
positions, and `find_proof` reads parent positions out of the rows
(`as_flattened`).

The schedule of `rayon::broadcast` over batches of pairs is not modelled: each
pair writes only its own row, so the order in which the pairs run does not
change what is written.
-/

namespace Subspace.ProofOfSpace

open Lib

/-- `group_by_buckets_from_buckets`: as `group_by_buckets`, over the `y`s of
each row, the `y` at index `j` of row `i` having position
`i · REDUCED_MATCHES_COUNT + j`. -/
def groupByBucketsFromBuckets (k : ℕ) (rows : List (List ℕ)) : List (List (ℕ × ℕ)) :=
  let buckets := rows.zipIdx.foldl
    (fun buckets row => (row.1.zipIdx (row.2 * reducedMatchesCount)).foldl groupStep buckets)
    fun _ => []
  (List.range (numBuckets k)).map fun bucketIndex => padBucket (buckets bucketIndex)

/-- `Table` as `Table::create_parallel` builds it: the first table as
`Table::create` does, the others `Table::OtherBuckets` with a row of results
for each pair of adjacent buckets. A row holds the results its count covers;
the slots after them are never written. -/
inductive ParallelTable where
  | first (buckets : List (List (ℕ × ℕ)))
  | otherBuckets (positions : List (List (ℕ × ℕ))) (metadatas : List (List ℕ))
      (buckets : List (List (ℕ × ℕ)))

namespace ParallelTable

/-- `Table::buckets`. -/
def buckets : ParallelTable → List (List (ℕ × ℕ))
  | first buckets => buckets
  | otherBuckets _ _ buckets => buckets

/-- `Table::metadata`: in the first table `x` matches the position; in the
others it is slot `position` of the rows (`as_flattened`). -/
def metadata : ParallelTable → ℕ → ℕ
  | first _, position => position
  | otherBuckets _ metadatas _, position => (rowSlot reducedMatchesCount metadatas position).getD 0

/-- `Table::position`: slot `position` of the rows of parent positions; the
first table has none (`unreachable!`). -/
def position : ParallelTable → ℕ → Option (ℕ × ℕ)
  | first _, _ => none
  | otherBuckets positions _ _, position => rowSlot reducedMatchesCount positions position

/-- `Table::prune`: `PrunedTable::OtherBuckets` keeps the rows of parent
positions. -/
def prune : ParallelTable → List (List (ℕ × ℕ))
  | first _ => []
  | otherBuckets positions _ _ => positions

variable (hashes : PosHashes) (k : ℕ)

/-- `Table::<K, 1>::create_parallel`, which computes the first table as
`Table::<K, 1>::create` does. -/
def createFirst : ParallelTable :=
  let ys := (List.range (2 ^ k)).map (computeF1 hashes k)
  first (sortBuckets (groupByBuckets k ys))

/-- `match_to_result` on a table built in parallel. -/
def matchToResult (tableNumber : ℕ) (parentTable : ParallelTable) (m : Match) : ℕ × (ℕ × ℕ) × ℕ :=
  let leftMetadata := parentTable.metadata m.leftPosition
  let rightMetadata := parentTable.metadata m.rightPosition
  let yAndMetadata := hashes.computeFn tableNumber m.leftY leftMetadata rightMetadata
  (yAndMetadata.1, (m.leftPosition, m.rightPosition), yAndMetadata.2)

/-- The body of the loop of `Table::create_parallel` for each pair of
adjacent buckets: row `left_bucket_index` of results, the first
`REDUCED_MATCHES_COUNT` matches of the pair mapped by `matches_to_results`;
its length is the row's count. -/
def createRows (tableNumber : ℕ) (parentTable : ParallelTable) : List (List (ℕ × (ℕ × ℕ) × ℕ)) :=
  let buckets := parentTable.buckets
  (buckets.zip buckets.tail).zipIdx.map fun window =>
    let found := findMatchesInBuckets window.2 window.1.1 window.1.2
    let found := found.take (min found.length reducedMatchesCount)
    found.map (matchToResult hashes tableNumber parentTable)

/-- `Table::create_parallel` of tables `2` to `7`. -/
def create (tableNumber : ℕ) (parentTable : ParallelTable) : ParallelTable :=
  let rows := createRows hashes tableNumber parentTable
  otherBuckets (rows.map (·.map (·.2.1))) (rows.map (·.map (·.2.2)))
    (sortBuckets (groupByBucketsFromBuckets k (rows.map (·.map (·.1)))))

end ParallelTable

/-- `TablesGeneric` as `TablesGeneric::create_parallel` builds it: the rows of
parent positions of tables `2` to `6`, and table `7`. -/
structure ParallelTables where
  table2 : List (List (ℕ × ℕ))
  table3 : List (List (ℕ × ℕ))
  table4 : List (List (ℕ × ℕ))
  table5 : List (List (ℕ × ℕ))
  table6 : List (List (ℕ × ℕ))
  table7 : ParallelTable

namespace ParallelTables

variable (hashes : PosHashes) (k : ℕ)

/-- `TablesGeneric::create_parallel`. -/
def create : ParallelTables :=
  let table1 := ParallelTable.createFirst hashes k
  let table2 := ParallelTable.create hashes k 2 table1
  let table3 := ParallelTable.create hashes k 3 table2
  let table4 := ParallelTable.create hashes k 4 table3
  let table5 := ParallelTable.create hashes k 5 table4
  let table6 := ParallelTable.create hashes k 6 table5
  let table7 := ParallelTable.create hashes k 7 table6
  { table2 := table2.prune
    table3 := table3.prune
    table4 := table4.prune
    table5 := table5.prune
    table6 := table6.prune
    table7 := table7 }

/-- `PrunedTable::position` of each position in turn, read from the rows. -/
def parentPositions (positions : List (List (ℕ × ℕ))) : List ℕ → Option (List ℕ)
  | [] => some []
  | position :: rest => do
    let pair ← rowSlot reducedMatchesCount positions position
    let later ← parentPositions positions rest
    pure (pair.1 :: pair.2 :: later)

/-- The positions of table `1` under two positions of table `6`. -/
def proofXs (tables : ParallelTables) (table6ProofTargets : ℕ × ℕ) : Option (List ℕ) := do
  let positions ← parentPositions tables.table6 [table6ProofTargets.1, table6ProofTargets.2]
  let positions ← parentPositions tables.table5 positions
  let positions ← parentPositions tables.table4 positions
  let positions ← parentPositions tables.table3 positions
  parentPositions tables.table2 positions

/-- `find_proof_internal` on tables built in parallel. -/
def findProofInternal (tables : ParallelTables) (table6ProofTargets : ℕ × ℕ) : Option (List ℕ) :=
  (proofXs tables table6ProofTargets).map (Tables.writeProof k)

/-- `find_proof` on tables built in parallel. -/
def findProof (tables : ParallelTables) (firstChallengeBytes : List ℕ) : List (Option (List ℕ)) :=
  let firstKChallengeBits := fromBeBytes firstChallengeBytes / 2 ^ (32 - k)
  let range := Tables.bucketRangeFromFirstKBits firstKChallengeBits
  ((tables.table7.buckets.drop range.1).take (range.2 + 1 - range.1)).flatMap fun positions =>
    ((positions.takeWhile fun entry => entry.1 ≠ sentinel).filter
        fun entry => firstKBits entry.2 = firstKChallengeBits).map fun entry =>
      (tables.table7.position entry.1).bind (findProofInternal k tables)

end ParallelTables

end Subspace.ProofOfSpace
