import Mathlib

/-!
# The proof-of-space verifier

`chiapos/table.rs` and `chiapos/tables.rs`: the matching relation of the
tables and `Tables::verify_only`, which `ChiaTable::is_proof_valid` calls.

A proof is `64 · K` bits: 64 values `x` of `K` bits each. The verifier maps
each `x` to `y = f1(x)`, then at each of six levels pairs the values up two by
two, checks each pair with `has_match` and replaces it by
`compute_fn(left_y, left_metadata, right_metadata)`. The proof is valid when
no pair fails and the first `K` bits of the last `y` are those of the
challenge.

The hash functions are abstract (`PosHashes`): the ChaCha8 keystream of the
seed, word by word, and `compute_fn`, which hashes the packed bits of `y` and
of both metadata with BLAKE3. Bit strings are natural numbers, with `% 2 ^ 32`
where the source casts to `u32`.
-/

namespace Subspace.ProofOfSpace

/-- `PARAM_EXT`. -/
def paramExt : ℕ := 6
/-- `PARAM_M`. -/
def paramM : ℕ := 2 ^ paramExt
/-- `PARAM_B`. -/
def paramB : ℕ := 119
/-- `PARAM_C`. -/
def paramC : ℕ := 127
/-- `PARAM_BC`. -/
def paramBC : ℕ := paramB * paramC

/-- `y_size_bits`. -/
def ySizeBits (k : ℕ) : ℕ := k + paramExt

/-- `Y::first_k_bits`. -/
def firstKBits (y : ℕ) : ℕ := y / 2 ^ paramExt

/-- `calculate_left_target_on_demand`: the `m`-th target in the right bucket
of the value at `r` of a left bucket of the given parity. -/
def calculateLeftTargetOnDemand (parity r m : ℕ) : ℕ :=
  ((r / paramC + m) % paramB) * paramC + (((2 * m + parity) * (2 * m + parity) + r) % paramC)

/-- `calculate_left_targets`, for one parity and one `r`: the targets, sorted.
The source computes the same formula in `u16`, where none of it overflows. -/
def calculateLeftTargets (parity r : ℕ) : List ℕ :=
  ((List.range paramM).map (calculateLeftTargetOnDemand parity r)).mergeSort

/-- `has_match`: the right value's place in its bucket is one of the targets of
the left value. The bucket of the right value is not checked. -/
def hasMatch (leftY rightY : ℕ) : Bool :=
  let rightR := rightY % paramBC
  let parity := (leftY / paramBC) % 2
  let leftR := leftY % paramBC
  let rTargets := (List.range paramM).map (calculateLeftTargetOnDemand parity leftR)
  rTargets.contains rightR

/-- The relation `find_matches_in_buckets` builds the tables with: the right
value is in the bucket after the left value's, at one of its targets. -/
def FindMatchesRelation (leftY rightY : ℕ) : Prop :=
  rightY / paramBC = leftY / paramBC + 1 ∧
    rightY % paramBC ∈ calculateLeftTargets ((leftY / paramBC) % 2) (leftY % paramBC)

-- decided on the targets before they are sorted, which `decide` can run through
instance (leftY rightY : ℕ) : Decidable (FindMatchesRelation leftY rightY) :=
  decidable_of_iff (rightY / paramBC = leftY / paramBC + 1 ∧ rightY % paramBC ∈
      (List.range paramM).map (calculateLeftTargetOnDemand ((leftY / paramBC) % 2) (leftY % paramBC)))
    (and_congr_right' List.mem_mergeSort.symm)

/-- The hash functions of the proof of space. -/
structure PosHashes where
  /-- Word `i` of the ChaCha8 keystream block `counter` of the seed, read
  big-endian (`compute_block(counter)[i].to_be()`). -/
  chacha8Word : ℕ → ℕ → ℕ
  /-- `compute_fn` of table `tableNumber`: the `y` and metadata of a matched
  pair to those of the next table. -/
  computeFn : ℕ → ℕ → ℕ → ℕ → ℕ × ℕ

variable (hashes : PosHashes) (k : ℕ)

/-- `compute_f1`: `K` bits of the keystream at bit `K · x`, followed by the
`PARAM_EXT` most significant bits of `x`. -/
def computeF1 (x : ℕ) : ℕ :=
  let skipBits := k * x
  let skipU32s := skipBits / 32
  let partialYOffset := skipBits % 32
  let firstBlockCounter := skipU32s / 16
  let u32InFirstBlock := skipU32s % 16
  let hi := hashes.chacha8Word firstBlockCounter u32InFirstBlock
  -- the second word spills into the next block at the end of a block
  let lo := if u32InFirstBlock + 1 = 16 then hashes.chacha8Word (firstBlockCounter + 1) 0
    else hashes.chacha8Word firstBlockCounter (u32InFirstBlock + 1)
  let partialY := hi * 2 ^ 32 + lo
  let preY := partialY / 2 ^ (64 - (k + paramExt) - partialYOffset) % 2 ^ 32
  let preYMask := (2 ^ 32 - 1) * 2 ^ paramExt % 2 ^ 32 &&& (2 ^ 32 - 1) / 2 ^ (32 - (k + paramExt))
  let preExt := x / 2 ^ (k - paramExt)
  preY &&& preYMask ||| preExt

/-- `u64::from_be_bytes`. -/
def fromBeBytes (bytes : List ℕ) : ℕ :=
  bytes.foldl (fun acc byte => acc * 256 + byte) 0

/-- The `x` at `offset` of a proof: the `K` bits from bit `K · offset` on,
copied out of the bytes that hold them. -/
def proofX (proofOfSpace : List ℕ) (offset : ℕ) : ℕ :=
  let offsetInBits := k * offset
  let bytesToCopy := (offsetInBits % 8 + k + 7) / 8
  let copied := ((proofOfSpace.drop (offsetInBits / 8)).take bytesToCopy)
  let preXBytes := copied ++ List.replicate (8 - copied.length) 0
  let preX := fromBeBytes preXBytes / 2 ^ (64 - (k + offsetInBits % 8))
  preX % 2 ^ 32 &&& (2 ^ 32 - 1) / 2 ^ (32 - k)

/-- The pairs of `collect_ys_and_metadata` (`as_chunks::<2>`); an odd last
value is left out. -/
def pairs {α : Type} : List α → List (α × α)
  | left :: right :: rest => (left, right) :: pairs rest
  | _ => []

/-- The loop of `collect_ys_and_metadata`: `none` when a pair does not match. -/
def collectPairs (tableNumber : ℕ) : List ((ℕ × ℕ) × (ℕ × ℕ)) → Option (List (ℕ × ℕ))
  | [] => some []
  | ((leftY, leftMetadata), (rightY, rightMetadata)) :: rest =>
    if !hasMatch leftY rightY then none
    else (collectPairs tableNumber rest).map
      (hashes.computeFn tableNumber leftY leftMetadata rightMetadata :: ·)

/-- `collect_ys_and_metadata`: any non-matching pair invalidates the whole
level, which comes out empty. -/
def collectYsAndMetadata (tableNumber : ℕ) (ysAndMetadata : List (ℕ × ℕ)) : List (ℕ × ℕ) :=
  (collectPairs hashes tableNumber (pairs ysAndMetadata)).getD []

/-- The end of `verify_only`: the first `K` bits of the last level's `y`
against the challenge's, false when no value is left. -/
def firstKBitsMatch (firstKChallengeBits : ℕ) (ysAndMetadata : List (ℕ × ℕ)) : Bool :=
  match ysAndMetadata.head? with
  | none => false
  | some (y, _) => firstKBits y == firstKChallengeBits

/-- `Tables::verify_only`. -/
def verifyOnly (firstChallengeBytes : List ℕ) (proofOfSpace : List ℕ) : Bool :=
  let firstKChallengeBits := fromBeBytes firstChallengeBytes / 2 ^ (32 - k)
  let ysAndMetadata := (List.range 64).map fun offset =>
    let x := proofX k proofOfSpace offset
    (computeF1 hashes k x, x)
  let ysAndMetadata := collectYsAndMetadata hashes 2 ysAndMetadata
  let ysAndMetadata := collectYsAndMetadata hashes 3 ysAndMetadata
  let ysAndMetadata := collectYsAndMetadata hashes 4 ysAndMetadata
  let ysAndMetadata := collectYsAndMetadata hashes 5 ysAndMetadata
  let ysAndMetadata := collectYsAndMetadata hashes 6 ysAndMetadata
  let ysAndMetadata := collectYsAndMetadata hashes 7 ysAndMetadata
  firstKBitsMatch firstKChallengeBits ysAndMetadata

/-- `ChiaTable::is_proof_valid`: the challenge index in little-endian bytes. -/
def isProofValid (challengeIndex : ℕ) (proof : List ℕ) : Bool :=
  verifyOnly hashes k [challengeIndex % 256, challengeIndex / 256 % 256,
    challengeIndex / 2 ^ 16 % 256, challengeIndex / 2 ^ 24 % 256] proof

end Subspace.ProofOfSpace
