import Subspace.ProofOfSpace.Verifier

/-!
# The proof-of-space tables

`chiapos/table.rs` and `chiapos/table/rmap.rs`: how the prover builds each
table from the one before, the relation the verifier checks being the one
these tables are matched with.

A table is a list of `y` values, each at its position. `group_by_buckets`
sorts them into buckets of `PARAM_BC` consecutive values, keeping the first
`REDUCED_BUCKET_SIZE` of each bucket in position order and padding the rest
with the sentinel; `sort_buckets` orders each bucket by `(y, position)`.
`find_matches_in_buckets` matches each bucket with the next: it indexes the
right bucket by `r = y - right_base` in an `Rmap`, and for each left value
looks up the right positions at each of the `PARAM_M` targets
`calculate_left_targets` gives. `Table::create` keeps the first
`REDUCED_MATCHES_COUNT` matches of each pair of buckets and turns each into an
entry of the next table with `compute_fn`.

Positions and `y`s are natural numbers, the sentinel being `u32::MAX`. The
count of an `Rmap` entry is a `u8` and wraps (`% 2 ^ 8`); the other counters
stay below the bounds the source's contracts give. A fixed-size array is a
function from its indices, and a bucket the list of its slots.
-/

namespace Subspace.ProofOfSpace

/-- `MAX_BUCKET_SIZE`. -/
def maxBucketSize : ℕ := 512
/-- `REDUCED_BUCKET_SIZE`. -/
def reducedBucketSize : ℕ := maxBucketSize
/-- `REDUCED_MATCHES_COUNT`. -/
def reducedMatchesCount : ℕ := maxBucketSize
/-- The length of the `matches` buffer of `find_matches_in_buckets`,
`REDUCED_MATCHES_COUNT + PARAM_M * 2`. -/
def matchesBufferSize : ℕ := reducedMatchesCount + paramM * 2

/-- `Position::SENTINEL` and `Y::SENTINEL`, both `u32::MAX`. -/
def sentinel : ℕ := 2 ^ 32 - 1

/-- `num_buckets`: `2 ^ y_size_bits(k)` divided by `PARAM_BC`, rounded up. -/
def numBuckets (k : ℕ) : ℕ := (2 ^ ySizeBits k + paramBC - 1) / paramBC

/-! ## `Rmap` -/

/-- `Rmap`: for each `r`, a virtual pointer (`0` for none, else the index of
its entry plus one); each entry is the start and count of the run of `r`'s
positions in the flat `positions` array. -/
structure Rmap where
  virtualPointers : ℕ → ℕ
  entries : ℕ → ℕ × ℕ
  positions : ℕ → ℕ
  nextEntry : ℕ
  nextPosition : ℕ

namespace Rmap

/-- `Rmap::new`. -/
def new : Rmap where
  virtualPointers _ := 0
  entries _ := (0, 0)
  positions _ := sentinel
  nextEntry := 0
  nextPosition := 0

/-- `Rmap::add`: an `r` seen before counts one more position, a new `r` gets
the next entry, starting at the next position. The count is a `u8`. -/
def add (rmap : Rmap) (r position : ℕ) : Rmap :=
  let virtualPointer := rmap.virtualPointers r
  let rmap :=
    if virtualPointer = 0 then
      let physicalPointer := rmap.nextEntry
      { rmap with
        nextEntry := rmap.nextEntry + 1
        virtualPointers := Function.update rmap.virtualPointers r (physicalPointer + 1)
        entries := Function.update rmap.entries physicalPointer (rmap.nextPosition, 1) }
    else
      let physicalPointer := virtualPointer - 1
      let entry := rmap.entries physicalPointer
      { rmap with
        entries := Function.update rmap.entries physicalPointer (entry.1, (entry.2 + 1) % 2 ^ 8) }
  { rmap with
    positions := Function.update rmap.positions rmap.nextPosition position
    nextPosition := rmap.nextPosition + 1 }

/-- `Rmap::get`: the run of `r`'s positions, empty when `r` has no entry. -/
def get (rmap : Rmap) (r : ℕ) : List ℕ :=
  let virtualPointer := rmap.virtualPointers r
  if virtualPointer = 0 then []
  else
    let entry := rmap.entries (virtualPointer - 1)
    (List.range entry.2).map fun i => rmap.positions (entry.1 + i)

end Rmap

/-! ## Buckets -/

/-- One iteration of the loop of `group_by_buckets`: `(position, y)` goes to
the end of bucket `y / PARAM_BC` unless that bucket is full. A bucket is the
list of its written slots, its length being its `bucket_offsets`. -/
def groupStep (buckets : ℕ → List (ℕ × ℕ)) (yAndPosition : ℕ × ℕ) : ℕ → List (ℕ × ℕ) :=
  let y := yAndPosition.1
  let position := yAndPosition.2
  let bucketIndex := y / paramBC
  if (buckets bucketIndex).length < reducedBucketSize then
    Function.update buckets bucketIndex (buckets bucketIndex ++ [(position, y)])
  else buckets

/-- The slots after the written ones hold `(Position::SENTINEL, Y::SENTINEL)`. -/
def padBucket (bucket : List (ℕ × ℕ)) : List (ℕ × ℕ) :=
  bucket ++ List.replicate (reducedBucketSize - bucket.length) (sentinel, sentinel)

/-- `group_by_buckets`: the position of each `y` is its index. -/
def groupByBuckets (k : ℕ) (ys : List ℕ) : List (List (ℕ × ℕ)) :=
  let buckets := ys.zipIdx.foldl groupStep fun _ => []
  (List.range (numBuckets k)).map fun bucketIndex => padBucket (buckets bucketIndex)

/-- The key of `sort_buckets`, `(y, position)` in lexicographic order. -/
def entryKeyLe (a b : ℕ × ℕ) : Bool :=
  decide (a.2 < b.2 ∨ a.2 = b.2 ∧ a.1 ≤ b.1)

/-- `sort_buckets` on one bucket: the entries before the first sentinel,
sorted by `(y, position)`. The key is the whole entry, so the unstable sort of
the source has only one result. -/
def sortBucket (bucket : List (ℕ × ℕ)) : List (ℕ × ℕ) :=
  let len := (bucket.takeWhile fun entry => entry.1 ≠ sentinel).length
  (bucket.take len).mergeSort entryKeyLe ++ bucket.drop len

/-- `sort_buckets`. -/
def sortBuckets (buckets : List (List (ℕ × ℕ))) : List (List (ℕ × ℕ)) :=
  buckets.map sortBucket

/-! ## Matching two buckets -/

/-- `Match`. -/
structure Match where
  leftPosition : ℕ
  leftY : ℕ
  rightPosition : ℕ
deriving DecidableEq, Repr

/-- The first loop of `find_matches_in_buckets`: the right bucket, up to its
first sentinel, into the `Rmap`. -/
def addRightBucket (rightBase : ℕ) : List (ℕ × ℕ) → Rmap → Rmap
  | [], rmap => rmap
  | (rightPosition, y) :: rest, rmap =>
    if rightPosition = sentinel then rmap
    else addRightBucket rightBase rest (rmap.add ((y - rightBase) % 2 ^ 16) rightPosition)

/-- The innermost loop of `find_matches_in_buckets`: a match for each right
position of one target while the buffer has room. Its `break` leaves this loop
only. -/
def matchRightPositions (leftPosition y : ℕ) : List ℕ → List Match → List Match
  | [], found => found
  | rightPosition :: rest, found =>
    if matchesBufferSize ≤ found.length then found
    else matchRightPositions leftPosition y rest (found ++ [⟨leftPosition, y, rightPosition⟩])

/-- The loop of `find_matches_in_buckets` over the left bucket: it stops at
the first sentinel, or once `REDUCED_MATCHES_COUNT` matches are found. -/
def matchLeftBucket (rmap : Rmap) (leftBase parity : ℕ) :
    List (ℕ × ℕ) → List Match → List Match
  | [], found => found
  | (leftPosition, y) :: rest, found =>
    if leftPosition = sentinel ∨ reducedMatchesCount ≤ found.length then found
    else
      let r := (y - leftBase) % 2 ^ 16
      let found := (calculateLeftTargets parity r).foldl
        (fun found rTarget => matchRightPositions leftPosition y (rmap.get rTarget) found) found
      matchLeftBucket rmap leftBase parity rest found

/-- `find_matches_in_buckets`. -/
def findMatchesInBuckets (leftBucketIndex : ℕ) (leftBucket rightBucket : List (ℕ × ℕ)) :
    List Match :=
  let leftBase := leftBucketIndex * paramBC
  let rightBase := leftBase + paramBC
  let rmap := addRightBucket rightBase rightBucket Rmap.new
  let parity := leftBase % 2
  matchLeftBucket rmap leftBase parity leftBucket []

/-! ## Tables -/

/-- `Table`: the first table's metadata is the position itself (the `x`); the
others keep each entry's parent positions and metadata. -/
inductive Table where
  | first (buckets : List (List (ℕ × ℕ)))
  | other (positions : List (ℕ × ℕ)) (metadatas : List ℕ) (buckets : List (List (ℕ × ℕ)))

namespace Table

/-- `Table::buckets`. -/
def buckets : Table → List (List (ℕ × ℕ))
  | first buckets => buckets
  | other _ _ buckets => buckets

/-- `Table::metadata`: in the first table `x` matches the position. -/
def metadata : Table → ℕ → ℕ
  | first _, position => position
  | other _ metadatas _, position => metadatas.getD position 0

/-- `Table::position`; the first table has none (`unreachable!`). -/
def position : Table → ℕ → Option (ℕ × ℕ)
  | first _, _ => none
  | other positions _ _, position => positions[position]?

/-- `Table::prune`: the parent positions, all a later stage reads. -/
def prune : Table → List (ℕ × ℕ)
  | first _ => []
  | other positions _ _ => positions

variable (hashes : PosHashes) (k : ℕ)

/-- `Table::<K, 1>::create`: `y = f1(x)` for every `x < 2 ^ K`. The source
computes the `y`s eight at a time with `compute_f1_simd`; this is the scalar
`compute_f1` it vectorises. -/
def createFirst : Table :=
  let ys := (List.range (2 ^ k)).map (computeF1 hashes k)
  first (sortBuckets (groupByBuckets k ys))

/-- `match_to_result`: the `y`, parent positions and metadata the next table
holds for a match. -/
def matchToResult (tableNumber : ℕ) (parentTable : Table) (m : Match) : ℕ × (ℕ × ℕ) × ℕ :=
  let leftMetadata := parentTable.metadata m.leftPosition
  let rightMetadata := parentTable.metadata m.rightPosition
  let yAndMetadata := hashes.computeFn tableNumber m.leftY leftMetadata rightMetadata
  (yAndMetadata.1, (m.leftPosition, m.rightPosition), yAndMetadata.2)

/-- The loop of `Table::create` over the pairs of adjacent buckets
(`array_windows`, numbered from `0`), keeping the first
`REDUCED_MATCHES_COUNT` matches of each; `matches_to_results` maps each kept
match by `match_to_result`, sixteen at a time or one by one. -/
def createResults (tableNumber : ℕ) (parentTable : Table) : List (ℕ × (ℕ × ℕ) × ℕ) :=
  let buckets := parentTable.buckets
  (buckets.zip buckets.tail).zipIdx.flatMap fun window =>
    let found := findMatchesInBuckets window.2 window.1.1 window.1.2
    let found := found.take (min found.length reducedMatchesCount)
    found.map (matchToResult hashes tableNumber parentTable)

/-- `Table::create` of tables `2` to `7`; the source returns the parent
pruned beside it. -/
def create (tableNumber : ℕ) (parentTable : Table) : Table :=
  let results := createResults hashes tableNumber parentTable
  let ys := results.map (·.1)
  other (results.map (·.2.1)) (results.map (·.2.2)) (sortBuckets (groupByBuckets k ys))

end Table

end Subspace.ProofOfSpace
