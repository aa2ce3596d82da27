import Subspace.ProofOfSpace.Table

/-!
# The proof-of-space prover

`chiapos/tables.rs`: `TablesGeneric::create` builds the seven tables, each
from the one before, and keeps the parent positions of tables `2` to `6` and
the whole of table `7`. `find_proof` takes each value of table `7` whose first
`K` bits are the challenge's, in bucket order, follows the parent positions
of its tree down to the 64 positions of table `1`, which are the `x`s, and
packs them `K` bits each, big-endian, into `64 · K / 8` bytes.

Positions are read unchecked in the source; here a position the tables do not
hold gives `none`, and the spec shows it never happens.
-/

namespace Subspace.ProofOfSpace

/-- `TablesGeneric`: the pruned tables `2` to `6`, their parent positions,
and table `7`. -/
structure Tables where
  table2 : List (ℕ × ℕ)
  table3 : List (ℕ × ℕ)
  table4 : List (ℕ × ℕ)
  table5 : List (ℕ × ℕ)
  table6 : List (ℕ × ℕ)
  table7 : Table

namespace Tables

variable (hashes : PosHashes) (k : ℕ)

/-- `TablesGeneric::create`. -/
def create : Tables :=
  let table1 := Table.createFirst hashes k
  let table2 := Table.create hashes k 2 table1
  let table3 := Table.create hashes k 3 table2
  let table4 := Table.create hashes k 4 table3
  let table5 := Table.create hashes k 5 table4
  let table6 := Table.create hashes k 6 table5
  let table7 := Table.create hashes k 7 table6
  { table2 := table2.prune
    table3 := table3.prune
    table4 := table4.prune
    table5 := table5.prune
    table6 := table6.prune
    table7 := table7 }

/-- `PrunedTable::position` of each position in turn, the two parent positions
of each flattened in order. -/
def parentPositions (positions : List (ℕ × ℕ)) : List ℕ → Option (List ℕ)
  | [] => some []
  | position :: rest => do
    let pair ← positions[position]?
    let later ← parentPositions positions rest
    pure (pair.1 :: pair.2 :: later)

/-- One iteration of the last loop of `find_proof_internal`: `x` OR-ed into
the proof at bit `K · offset`, as the big-endian bytes of `x` shifted to its
place in a `u32`, over the bytes that hold its bits (as many as both have). -/
def writeX (proof : List ℕ) (x offset : ℕ) : List ℕ :=
  let xOffsetInBits := k * offset
  let proofBytesStart := xOffsetInBits / 8
  let proofBytesCount := (xOffsetInBits % 8 + k + 7) / 8
  let xShifted := x * 2 ^ (32 - (k + xOffsetInBits % 8)) % 2 ^ 32
  let xBytes := [xShifted / 2 ^ 24 % 256, xShifted / 2 ^ 16 % 256, xShifted / 2 ^ 8 % 256,
    xShifted % 256]
  proof.mapIdx fun i byte =>
    if proofBytesStart ≤ i ∧ i < proofBytesStart + min proofBytesCount 4 then
      byte ||| xBytes.getD (i - proofBytesStart) 0
    else byte

/-- The proof of `find_proof_internal`: `64 · K / 8` zero bytes, each `x`
written at its offset. -/
def writeProof (xs : List ℕ) : List ℕ :=
  xs.zipIdx.foldl (fun proof xAndOffset => writeX k proof xAndOffset.1 xAndOffset.2)
    (List.replicate (64 * k / 8) 0)

/-- The positions of table `1` under two positions of table `6`, followed
table by table; `X` matches position. -/
def proofXs (tables : Tables) (table6ProofTargets : ℕ × ℕ) : Option (List ℕ) := do
  let positions ← parentPositions tables.table6 [table6ProofTargets.1, table6ProofTargets.2]
  let positions ← parentPositions tables.table5 positions
  let positions ← parentPositions tables.table4 positions
  let positions ← parentPositions tables.table3 positions
  parentPositions tables.table2 positions

/-- `find_proof_internal`. -/
def findProofInternal (tables : Tables) (table6ProofTargets : ℕ × ℕ) : Option (List ℕ) :=
  (proofXs tables table6ProofTargets).map (writeProof k)

/-- `Y::bucket_range_from_first_k_bits`: the first and last bucket holding
`y`s whose first `K` bits are `value`. -/
def bucketRangeFromFirstKBits (value : ℕ) : ℕ × ℕ :=
  let rangeStart := value * 2 ^ paramExt % 2 ^ 32
  let rangeEnd := rangeStart ||| (2 ^ 32 - 1) / 2 ^ (32 - paramExt)
  (rangeStart / paramBC, rangeEnd / paramBC)

/-- `find_proof`: a proof for each value of table `7`, in the buckets of the
challenge's first `K` bits, that has those first `K` bits. -/
def findProof (tables : Tables) (firstChallengeBytes : List ℕ) : List (Option (List ℕ)) :=
  let firstKChallengeBits := fromBeBytes firstChallengeBytes / 2 ^ (32 - k)
  let range := bucketRangeFromFirstKBits firstKChallengeBits
  ((tables.table7.buckets.drop range.1).take (range.2 + 1 - range.1)).flatMap fun positions =>
    ((positions.takeWhile fun entry => entry.1 ≠ sentinel).filter
        fun entry => firstKBits entry.2 = firstKChallengeBits).map fun entry =>
      (tables.table7.position entry.1).bind (findProofInternal k tables)

end Tables

end Subspace.ProofOfSpace
