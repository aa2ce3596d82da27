import Mathlib
import Subspace.Lib.IteratedMap

/-!
# Proof of time

`subspace-proof-of-time` (`src/crates/subspace-proof-of-time/src/lib.rs` and `aes.rs`). A proof
of time is a chain of AES-128 encryptions of the seed under a key derived from the seed. `prove`
keeps every `iterations / NUM_CHECKPOINTS`-th block of the chain as a checkpoint. `verify` does
not recompute the chain in order: it encrypts the seed and every checkpoint but the last for half
the iterations between two checkpoints, decrypts every checkpoint for as many, and compares.

AES-128 is abstract (`BlockCipher`): under each key, encryption and decryption are mutually
inverse maps of blocks, which is all the proofs use. The key is derived from the seed by BLAKE3,
abstract too (`seedKey`). Only the portable code is modelled (`create_generic` and
`verify_sequential_generic`); the x86_64 and aarch64 paths are taken to compute the same.

`verify_accepts_exactly_prove`: when the iterations are a multiple of twice the number of
checkpoints, `verify` accepts exactly the checkpoints `prove` computes, and otherwise both return
the error.
-/

namespace Subspace.ProofOfTime

/-- AES-128 under each key, abstract: decryption undoes encryption and encryption undoes
decryption. -/
structure BlockCipher (Key Block : Type) where
  encrypt : Key → Block → Block
  decrypt : Key → Block → Block
  decrypt_encrypt : ∀ key, Function.LeftInverse (decrypt key) (encrypt key)
  encrypt_decrypt : ∀ key, Function.RightInverse (decrypt key) (encrypt key)

/-- `PotCheckpoints::NUM_CHECKPOINTS`. -/
def numCheckpoints : ℕ := 8

/-- `PotCheckpoints`: an array of `NUM_CHECKPOINTS` outputs. -/
@[ext]
structure PotCheckpoints (Block : Type) where
  outputs : List Block
  length_outputs : outputs.length = numCheckpoints
deriving DecidableEq

/-- `NonZeroU32`. -/
structure NonZeroU32 where
  get : ℕ
  get_ne_zero : get ≠ 0
  get_lt : get < 2 ^ 32
deriving DecidableEq

/-- `PotError`. -/
inductive PotError
  /-- `NotMultipleOfCheckpoints { iterations, num_checkpoints }`. -/
  | notMultipleOfCheckpoints (iterations : NonZeroU32) (numCheckpoints : ℕ)
deriving DecidableEq

variable {Key Block : Type} (cipher : BlockCipher Key Block)

/-- The loop of `create_generic` over the checkpoints: each is the block after
`checkpointIterations` more encryptions. -/
def createLoop (key : Key) (checkpointIterations : ℕ) : ℕ → Block → List Block
  | 0, _ => []
  | remaining + 1, curBlock =>
    let curBlock := (cipher.encrypt key)^[checkpointIterations] curBlock
    curBlock :: createLoop key checkpointIterations remaining curBlock

/-- The checkpoints are the chain of `checkpointIterations` encryptions from the seed. -/
theorem createLoop_eq_iterate (key : Key) (checkpointIterations : ℕ) :
    ∀ (remaining : ℕ) (curBlock : Block),
      createLoop cipher key checkpointIterations remaining curBlock =
        List.iterate (cipher.encrypt key)^[checkpointIterations]
          ((cipher.encrypt key)^[checkpointIterations] curBlock) remaining
  | 0, _ => rfl
  | remaining + 1, curBlock => by
    rw [createLoop, createLoop_eq_iterate key checkpointIterations remaining]
    rfl

theorem length_createLoop (key : Key) (checkpointIterations remaining : ℕ) (curBlock : Block) :
    (createLoop cipher key checkpointIterations remaining curBlock).length = remaining := by
  rw [createLoop_eq_iterate, List.length_iterate]

/-- `create_generic`. -/
def createGeneric (seed : Block) (key : Key) (checkpointIterations : ℕ) : PotCheckpoints Block :=
  ⟨createLoop cipher key checkpointIterations numCheckpoints seed,
    length_createLoop cipher key checkpointIterations numCheckpoints seed⟩

/-- `verify_sequential_generic`: the seed and every checkpoint but the last are encrypted, and
every checkpoint is decrypted, `checkpointIterations / 2` times; then the two must agree. -/
def verifySequentialGeneric [DecidableEq Block] (seed : Block) (key : Key)
    (checkpoints : PotCheckpoints Block) (checkpointIterations : ℕ) : Bool :=
  let inputs := seed :: checkpoints.outputs.take (numCheckpoints - 1)
  let outputs := checkpoints.outputs
  let (inputs, outputs) :=
    (Prod.map (List.map (cipher.encrypt key)) (List.map (cipher.decrypt key)))^[checkpointIterations / 2]
      (inputs, outputs)
  inputs == outputs

/-- `verify_sequential` on the portable path; `none` where its `assert_eq!` fails. -/
def verifySequential [DecidableEq Block] (seed : Block) (key : Key)
    (checkpoints : PotCheckpoints Block) (checkpointIterations : ℕ) : Option Bool :=
  if checkpointIterations % 2 = 0 then
    some (verifySequentialGeneric cipher seed key checkpoints checkpointIterations)
  else none

variable (seedKey : Block → Key)

/-- `prove`. `PotSeed::key` is `seedKey`, and `create` computes what `create_generic` does. -/
def prove (seed : Block) (iterations : NonZeroU32) : Except PotError (PotCheckpoints Block) :=
  if iterations.get % (numCheckpoints * 2) ≠ 0 then
    .error (.notMultipleOfCheckpoints iterations numCheckpoints)
  else .ok (createGeneric cipher seed (seedKey seed) (iterations.get / numCheckpoints))

/-- `verify`; `none` where `verify_sequential` panics. -/
def verify [DecidableEq Block] (seed : Block) (iterations : NonZeroU32)
    (checkpoints : PotCheckpoints Block) : Option (Except PotError Bool) :=
  let numCheckpoints := checkpoints.outputs.length
  if iterations.get % (numCheckpoints * 2) ≠ 0 then
    some (.error (.notMultipleOfCheckpoints iterations numCheckpoints))
  else
    (verifySequential cipher seed (seedKey seed) checkpoints (iterations.get / numCheckpoints)).map
      .ok

/-- The checkpoints `create_generic` computes: each is `checkpointIterations` encryptions of the
one before it, the seed before the first. -/
theorem createGeneric_eq_iff (seed : Block) (key : Key) (checkpoints : PotCheckpoints Block)
    (checkpointIterations : ℕ) :
    createGeneric cipher seed key checkpointIterations = checkpoints ↔
      ∀ i < numCheckpoints, checkpoints.outputs[i]? =
        (seed :: checkpoints.outputs)[i]?.map (cipher.encrypt key)^[checkpointIterations] := by
  rw [PotCheckpoints.ext_iff]
  show createLoop cipher key checkpointIterations numCheckpoints seed = checkpoints.outputs ↔ _
  rw [createLoop_eq_iterate]
  exact IteratedMap.iterate_eq_iff _ seed checkpoints.length_outputs

/-- Iterations that are a multiple of twice the number of checkpoints give an even number
between two checkpoints. -/
theorem even_of_multiple {iterations : ℕ} (multiple : iterations % (numCheckpoints * 2) = 0) :
    iterations / numCheckpoints % 2 = 0 := by
  simp only [numCheckpoints] at multiple ⊢
  omega

theorem prove_of_not_multiple (seed : Block) {iterations : NonZeroU32}
    (notMultiple : iterations.get % (numCheckpoints * 2) ≠ 0) :
    prove cipher seedKey seed iterations =
      .error (.notMultipleOfCheckpoints iterations numCheckpoints) := by
  rw [prove, if_pos notMultiple]

theorem prove_of_multiple (seed : Block) {iterations : NonZeroU32}
    (multiple : iterations.get % (numCheckpoints * 2) = 0) :
    prove cipher seedKey seed iterations =
      .ok (createGeneric cipher seed (seedKey seed) (iterations.get / numCheckpoints)) := by
  rw [prove, if_neg (not_not.mpr multiple)]

/-! ## Checking the chain from both ends -/

section Verify

variable [DecidableEq Block]

/-- The check of `verify_sequential_generic`: with an even number of iterations between two
checkpoints, it accepts exactly when each checkpoint is that many encryptions of the one before
it, the seed before the first. -/
theorem verifySequentialGeneric_iff (seed : Block) (key : Key) (checkpoints : PotCheckpoints Block)
    {checkpointIterations : ℕ} (even : checkpointIterations % 2 = 0) :
    verifySequentialGeneric cipher seed key checkpoints checkpointIterations = true ↔
      ∀ i < numCheckpoints, checkpoints.outputs[i]? =
        (seed :: checkpoints.outputs)[i]?.map (cipher.encrypt key)^[checkpointIterations] := by
  have halves : checkpointIterations / 2 + checkpointIterations / 2 = checkpointIterations := by
    omega
  -- the inputs are the seed and the checkpoints, cut to as many as there are checkpoints
  have inputs : seed :: checkpoints.outputs.take (numCheckpoints - 1) =
      (seed :: checkpoints.outputs).take checkpoints.outputs.length := by
    rw [checkpoints.length_outputs]
    rfl
  unfold verifySequentialGeneric
  simp only [Prod.map_iterate, Prod.map, IteratedMap.map_iterate, beq_iff_eq]
  rw [IteratedMap.map_iterate_eq_map_iterate_iff (cipher.decrypt_encrypt key)
    (cipher.encrypt_decrypt key), halves, inputs, IteratedMap.map_take_cons_eq_iff,
    checkpoints.length_outputs]

theorem verify_of_multiple (seed : Block) {iterations : NonZeroU32}
    (checkpoints : PotCheckpoints Block) (multiple : iterations.get % (numCheckpoints * 2) = 0) :
    verify cipher seedKey seed iterations checkpoints =
      some (.ok (verifySequentialGeneric cipher seed (seedKey seed) checkpoints
        (iterations.get / numCheckpoints))) := by
  unfold verify verifySequential
  rw [checkpoints.length_outputs, if_neg (not_not.mpr multiple),
    if_pos (even_of_multiple multiple), Option.map_some]

theorem verify_of_not_multiple (seed : Block) {iterations : NonZeroU32}
    (checkpoints : PotCheckpoints Block) (notMultiple : iterations.get % (numCheckpoints * 2) ≠ 0) :
    verify cipher seedKey seed iterations checkpoints =
      some (.error (.notMultipleOfCheckpoints iterations numCheckpoints)) := by
  unfold verify
  rw [checkpoints.length_outputs, if_pos notMultiple]

/-- `verify` accepts exactly the checkpoints `prove` computes when the iterations are a multiple
of twice the number of checkpoints, and otherwise both fail with `NotMultipleOfCheckpoints`. The
check of `verify_sequential_generic` is the chain of encryptions, link by link. -/
theorem verify_accepts_exactly_prove (seed : Block) (iterations : NonZeroU32)
    (checkpoints : PotCheckpoints Block) :
    (iterations.get % (numCheckpoints * 2) = 0 →
      (verify cipher seedKey seed iterations checkpoints = some (.ok true) ↔
        prove cipher seedKey seed iterations = .ok checkpoints) ∧
      (verify cipher seedKey seed iterations checkpoints = some (.ok false) ↔
        prove cipher seedKey seed iterations ≠ .ok checkpoints)) ∧
    (iterations.get % (numCheckpoints * 2) ≠ 0 →
      prove cipher seedKey seed iterations =
          .error (.notMultipleOfCheckpoints iterations numCheckpoints) ∧
        verify cipher seedKey seed iterations checkpoints =
          some (.error (.notMultipleOfCheckpoints iterations numCheckpoints))) ∧
    ∀ (key : Key) (checkpointIterations : ℕ), checkpointIterations % 2 = 0 →
      (verifySequentialGeneric cipher seed key checkpoints checkpointIterations = true ↔
        ∀ i < numCheckpoints, checkpoints.outputs[i]? =
          (seed :: checkpoints.outputs)[i]?.map (cipher.encrypt key)^[checkpointIterations]) := by
  refine ⟨fun multiple => ?_, fun notMultiple => ⟨prove_of_not_multiple cipher seedKey seed
    notMultiple, verify_of_not_multiple cipher seedKey seed checkpoints notMultiple⟩,
    fun key _ even => verifySequentialGeneric_iff cipher seed key checkpoints even⟩
  -- both sides come down to the chain from the seed
  have accepted : verifySequentialGeneric cipher seed (seedKey seed) checkpoints
      (iterations.get / numCheckpoints) = true ↔ prove cipher seedKey seed iterations = .ok checkpoints := by
    rw [verifySequentialGeneric_iff cipher seed (seedKey seed) checkpoints (even_of_multiple multiple),
      prove_of_multiple cipher seedKey seed multiple, Except.ok.injEq, createGeneric_eq_iff]
  rw [verify_of_multiple cipher seedKey seed checkpoints multiple, ne_eq, ← accepted]
  exact ⟨by simp, by simp⟩

/-- Negation is a cipher of booleans; sixteen iterations give two between checkpoints, so every
checkpoint of `false` is `false`, and one that is not is rejected. -/
example : verify ⟨fun (_ : Unit) b => !b, fun _ b => !b, fun _ b => Bool.not_not b,
      fun _ b => Bool.not_not b⟩ (fun _ => ()) false ⟨16, by decide, by decide⟩
      ⟨[false, false, false, false, false, false, false, true], rfl⟩ = some (.ok false) := by
  decide

end Verify

end Subspace.ProofOfTime
