import Mathlib
import Subspace.Lib.Except
import Subspace.ProofOfTime.Aes

/-!
# The proof-of-time justification of a block

A block carries, as a justification, the proofs of time of the slots since its parent's future
slot: a seed and one `PotCheckpoints` per slot. Two places check it, from two starting points.
`SubspaceVerifier::check_header` (`sc-consensus-subspace/src/verifier.rs`) anchors the last
checkpoint at the block's future proof of time, takes the first seed from the justification,
and verifies every checkpoint against the input derived from the checkpoint before it.
Block import (`block_import.rs`) recomputes the first seed from the parent's future proof of
time and counts the checkpoints.

Slots are `ℕ`: the slot arithmetic of both checks stays far below `2 ^ 64`. The caching
`PotVerifier::verify_checkpoints` is a function that accepts exactly what `prove` computes, the
assumption under which the checks are compared with the chain; `PotOutput::seed_with_entropy`
hashes with BLAKE3 and is abstract. Decoding the justification from the block is left out.

`pot_justification_accepted_iff_chain`: the two checks together accept exactly the chain of
proofs that starts from the parent, with the justification's seed its first seed.
-/

namespace Subspace.ProofOfTime

variable {Block Entropy : Type}

/-- `PotCheckpoints::output`: the last checkpoint. -/
def PotCheckpoints.output (checkpoints : PotCheckpoints Block) : Block :=
  checkpoints.outputs.getLast
    (List.ne_nil_of_length_pos (by rw [checkpoints.length_outputs]; decide))

/-- `PotParametersChange`: from `slot` on, slots take `slotIterations`, and `entropy` is mixed
into the seed of `slot`. -/
structure PotParametersChange (Entropy : Type) where
  slot : ℕ
  slotIterations : NonZeroU32
  entropy : Entropy

/-- `PotNextSlotInput`: what the proof of time of `slot` is computed from. -/
@[ext]
structure PotNextSlotInput (Block : Type) where
  slot : ℕ
  slotIterations : NonZeroU32
  seed : Block

/-- `check_header`'s errors of the justification checks. -/
inductive VerificationError
  | invalidSubspaceJustificationContents
  | invalidProofOfTime
deriving DecidableEq, Repr

/-- Block import's error of the justification checks. -/
inductive BlockImportError
  | invalidSubspaceJustificationContents
deriving DecidableEq, Repr

/-- The iterations of `slot`: the change's from its slot on, else the digest's. -/
def slotIterationsAt (potSlotIterations : NonZeroU32)
    (potParametersChange : Option (PotParametersChange Entropy)) (slot : ℕ) : NonZeroU32 :=
  match potParametersChange with
  | some parametersChange =>
    if parametersChange.slot ≤ slot then parametersChange.slotIterations else potSlotIterations
  | none => potSlotIterations

variable (seedWithEntropy : Block → Entropy → Block)

/-- `PotNextSlotInput::derive`. `PotOutput::seed` is the output's own bytes, and
`seed_with_entropy` is `seedWithEntropy`. -/
def PotNextSlotInput.derive (baseSlotIterations : NonZeroU32) (parentSlot : ℕ)
    (parentOutput : Block) (potParametersChange : Option (PotParametersChange Entropy)) :
    PotNextSlotInput Block :=
  let nextSlot := parentSlot + 1
  match potParametersChange with
  | some parametersChange =>
    if parametersChange.slot ≤ nextSlot then
      -- entropy is mixed in only at the slot of the change itself
      ⟨nextSlot, parametersChange.slotIterations,
        if parametersChange.slot = nextSlot then
          seedWithEntropy parentOutput parametersChange.entropy
        else parentOutput⟩
    else ⟨nextSlot, baseSlotIterations, parentOutput⟩
  | none => ⟨nextSlot, baseSlotIterations, parentOutput⟩

/-- The inputs `check_header` verifies the checkpoints against, paired with them: the first
input is given, and each next one is derived from the output of the checkpoints before it
(`windows(2)` over the checkpoints). -/
def checkpointsVerificationInput (potParametersChange : Option (PotParametersChange Entropy)) :
    PotNextSlotInput Block → List (PotCheckpoints Block) →
      List (PotNextSlotInput Block × PotCheckpoints Block)
  | _, [] => []
  | potInput, checkpoints :: rest =>
    (potInput, checkpoints) :: checkpointsVerificationInput potParametersChange
      (PotNextSlotInput.derive seedWithEntropy potInput.slotIterations potInput.slot
        checkpoints.output potParametersChange) rest

section Chain

/-- The input of the `j`-th slot of the chain of proofs from `x₀`: `derive` applied along the
outputs of the first `j` checkpoints. -/
def chainInput (potParametersChange : Option (PotParametersChange Entropy))
    (x₀ : PotNextSlotInput Block) (checkpoints : List (PotCheckpoints Block)) (j : ℕ) :
    PotNextSlotInput Block :=
  (checkpoints.take j).foldl (fun x checkpoints => PotNextSlotInput.derive seedWithEntropy
    x.slotIterations x.slot checkpoints.output potParametersChange) x₀

variable (potParametersChange : Option (PotParametersChange Entropy))

@[simp] theorem chainInput_zero (x₀ : PotNextSlotInput Block)
    (checkpoints : List (PotCheckpoints Block)) :
    chainInput seedWithEntropy potParametersChange x₀ checkpoints 0 = x₀ := rfl

@[simp] theorem chainInput_cons_succ (x₀ : PotNextSlotInput Block) (first : PotCheckpoints Block)
    (rest : List (PotCheckpoints Block)) (j : ℕ) :
    chainInput seedWithEntropy potParametersChange x₀ (first :: rest) (j + 1) =
      chainInput seedWithEntropy potParametersChange (PotNextSlotInput.derive seedWithEntropy
        x₀.slotIterations x₀.slot first.output potParametersChange) rest j := rfl

@[simp] theorem derive_slot (baseSlotIterations : NonZeroU32) (parentSlot : ℕ)
    (parentOutput : Block) :
    (PotNextSlotInput.derive seedWithEntropy baseSlotIterations parentSlot parentOutput
      potParametersChange).slot = parentSlot + 1 := by
  cases potParametersChange with
  | none => rfl
  | some parametersChange =>
    unfold PotNextSlotInput.derive
    dsimp only
    split <;> rfl

/-- `derive` takes the iterations by the rule `check_header` applies to its first slot. -/
@[simp] theorem derive_slotIterations (baseSlotIterations : NonZeroU32) (parentSlot : ℕ)
    (parentOutput : Block) :
    (PotNextSlotInput.derive seedWithEntropy baseSlotIterations parentSlot parentOutput
      potParametersChange).slotIterations =
        slotIterationsAt baseSlotIterations potParametersChange (parentSlot + 1) := by
  cases potParametersChange with
  | none => rfl
  | some parametersChange =>
    unfold PotNextSlotInput.derive slotIterationsAt
    dsimp only
    split <;> rfl

/-- The scan of `check_header` over the checkpoints pairs the `j`-th checkpoints with the
`j`-th input of the chain from its first input. -/
theorem all_checkpointsVerificationInput_iff
    (p : PotNextSlotInput Block × PotCheckpoints Block → Bool) :
    ∀ (x₀ : PotNextSlotInput Block) (checkpoints : List (PotCheckpoints Block)),
      (checkpointsVerificationInput seedWithEntropy potParametersChange x₀ checkpoints).all p ↔
        ∀ j (hj : j < checkpoints.length),
          p (chainInput seedWithEntropy potParametersChange x₀ checkpoints j, checkpoints[j])
  | _, [] => by simp [checkpointsVerificationInput]
  | x₀, first :: rest => by
    rw [checkpointsVerificationInput, List.all_cons, Bool.and_eq_true,
      all_checkpointsVerificationInput_iff p _ rest]
    -- slot 0 is the first input, slot `j + 1` the `j`-th of the chain from the next input
    constructor
    · rintro ⟨head, tail⟩ (_ | j) hj
      · exact head
      · exact tail j (by simpa using hj)
    · intro all
      exact ⟨all 0 (by simp), fun j hj => all (j + 1) (by simpa using hj)⟩

end Chain

variable [DecidableEq Block]
  (verifyCheckpoints : Block → NonZeroU32 → PotCheckpoints Block → Bool)

/-- The justification checks of `SubspaceVerifier::check_header`, with
`full_pot_verification`. -/
def checkJustification (blockAuthoringDelay slot : ℕ) (futureProofOfTime : Block)
    (potSlotIterations : NonZeroU32) (potParametersChange : Option (PotParametersChange Entropy))
    (seed : Block) (checkpoints : List (PotCheckpoints Block)) : Except VerificationError Unit := do
  -- the last checkpoint anchors the rest at the block's future proof of time
  ensure (checkpoints.getLast?.map PotCheckpoints.output = some futureProofOfTime)
    .invalidSubspaceJustificationContents
  let futureSlot := slot + blockAuthoringDelay
  -- the checked subtraction of the first slot to check
  ensure (checkpoints.length - 1 ≤ futureSlot) .invalidProofOfTime
  let firstSlotToCheck := futureSlot - (checkpoints.length - 1)
  let slotIterations := slotIterationsAt potSlotIterations potParametersChange firstSlotToCheck
  let input := checkpointsVerificationInput seedWithEntropy potParametersChange
    ⟨firstSlotToCheck, slotIterations, seed⟩ checkpoints
  ensure (input.all fun (potInput, checkpoints) =>
      verifyCheckpoints potInput.seed potInput.slotIterations checkpoints) .invalidProofOfTime

/-- The checks of block import on the seed and the number of checkpoints of the
justification: the first block starts from the genesis seed, any other from its parent's future
proof of time. Block import has rejected a slot that does not increase before these checks, so
the subtraction of the parent's future slot does not wrap. -/
def checkJustificationInputs (blockAuthoringDelay : ℕ) (genesisSeed : Block)
    (blockNumber slot parentSlot : ℕ) (parentFutureProofOfTime : Block)
    (potSlotIterations : NonZeroU32) (potParametersChange : Option (PotParametersChange Entropy))
    (seed : Block) (checkpoints : List (PotCheckpoints Block)) : Except BlockImportError Unit :=
  let futureSlot := slot + blockAuthoringDelay
  if blockNumber = 1 then do
    ensure (seed = genesisSeed) .invalidSubspaceJustificationContents
    ensure (checkpoints.length = futureSlot) .invalidSubspaceJustificationContents
  else do
    let parentFutureSlot := parentSlot + blockAuthoringDelay
    let correctInputParameters := PotNextSlotInput.derive seedWithEntropy potSlotIterations
      parentFutureSlot parentFutureProofOfTime potParametersChange
    ensure (seed = correctInputParameters.seed) .invalidSubspaceJustificationContents
    -- the number of proofs not yet seen on chain
    ensure (checkpoints.length = futureSlot - parentFutureSlot)
      .invalidSubspaceJustificationContents


/-- What `check_header` accepts: the anchor, a first slot to check, and every checkpoints
verified against the chain of inputs from the justification's seed. -/
theorem checkJustification_eq_ok (blockAuthoringDelay slot : ℕ) (futureProofOfTime : Block)
    (potSlotIterations : NonZeroU32) (potParametersChange : Option (PotParametersChange Entropy))
    (seed : Block) (checkpoints : List (PotCheckpoints Block)) :
    checkJustification seedWithEntropy verifyCheckpoints blockAuthoringDelay slot
        futureProofOfTime potSlotIterations potParametersChange seed checkpoints = .ok () ↔
      checkpoints.getLast?.map PotCheckpoints.output = some futureProofOfTime ∧
      checkpoints.length - 1 ≤ slot + blockAuthoringDelay ∧
      let firstSlotToCheck := slot + blockAuthoringDelay - (checkpoints.length - 1)
      ∀ j (hj : j < checkpoints.length),
        let input := chainInput seedWithEntropy potParametersChange ⟨firstSlotToCheck,
          slotIterationsAt potSlotIterations potParametersChange firstSlotToCheck, seed⟩
          checkpoints j
        verifyCheckpoints input.seed input.slotIterations checkpoints[j] = true := by
  simp only [checkJustification, Except.bind_eq_ok, ensure_eq_ok, exists_const,
    all_checkpointsVerificationInput_iff]

/-- What block import accepts of a block after the first: the seed derived from the parent's
future proof of time, and one checkpoints for each slot after the parent's future slot. -/
theorem checkJustificationInputs_eq_ok_of_ne_one (blockAuthoringDelay : ℕ) (genesisSeed : Block)
    {blockNumber : ℕ} (nonFirst : blockNumber ≠ 1) (slot parentSlot : ℕ)
    (parentFutureProofOfTime : Block) (potSlotIterations : NonZeroU32)
    (potParametersChange : Option (PotParametersChange Entropy)) (seed : Block)
    (checkpoints : List (PotCheckpoints Block)) :
    checkJustificationInputs seedWithEntropy blockAuthoringDelay genesisSeed blockNumber slot
        parentSlot parentFutureProofOfTime potSlotIterations potParametersChange seed
        checkpoints = .ok () ↔
      seed = (PotNextSlotInput.derive seedWithEntropy potSlotIterations
        (parentSlot + blockAuthoringDelay) parentFutureProofOfTime potParametersChange).seed ∧
      checkpoints.length = slot + blockAuthoringDelay - (parentSlot + blockAuthoringDelay) := by
  simp only [checkJustificationInputs, if_neg nonFirst, Except.bind_eq_ok, ensure_eq_ok,
    exists_const]

omit [DecidableEq Block] in
/-- With the number of checkpoints block import requires and the seed it derives, the first
input `check_header` builds is the input `derive` gives for the slot after the parent's future
slot: the two places start the chain at the same input. -/
theorem firstInput_eq_derive (potSlotIterations : NonZeroU32)
    (potParametersChange : Option (PotParametersChange Entropy)) {futureSlot parentFutureSlot : ℕ}
    (parentFutureProofOfTime seed : Block) {count : ℕ} (before : parentFutureSlot < futureSlot)
    (counted : count = futureSlot - parentFutureSlot)
    (seeded : seed = (PotNextSlotInput.derive seedWithEntropy potSlotIterations parentFutureSlot
      parentFutureProofOfTime potParametersChange).seed) :
    (⟨futureSlot - (count - 1), slotIterationsAt potSlotIterations potParametersChange
        (futureSlot - (count - 1)), seed⟩ : PotNextSlotInput Block) =
      PotNextSlotInput.derive seedWithEntropy potSlotIterations parentFutureSlot
        parentFutureProofOfTime potParametersChange := by
  have first : futureSlot - (count - 1) = parentFutureSlot + 1 := by omega
  ext
  · simp [first]
  · simp [first]
  · exact seeded

section Accepted

variable {Key : Type} (cipher : BlockCipher Key Block) (seedKey : Block → Key)

/-- The two checks of a block's justification together accept exactly the chain of proofs of
time from its parent: the seed and the number of checkpoints block import asks for, each
checkpoints the proof of its slot's input, `derive`d from the output before it, and the last the
block's future proof of time. `check_header` alone checks the chain from whatever seed the
justification names; block import pins that seed. -/
theorem pot_justification_accepted_iff_chain {blockAuthoringDelay blockNumber slot parentSlot : ℕ}
    {genesisSeed parentFutureProofOfTime futureProofOfTime seed : Block}
    {potSlotIterations : NonZeroU32} {potParametersChange : Option (PotParametersChange Entropy)}
    {checkpoints : List (PotCheckpoints Block)}
    (verified : ∀ seed iterations checkpoints,
      verifyCheckpoints seed iterations checkpoints = true ↔
        prove cipher seedKey seed iterations = .ok checkpoints)
    (nonFirst : blockNumber ≠ 1)
    (parentBefore : parentSlot + blockAuthoringDelay < slot + blockAuthoringDelay) :
    (checkJustification seedWithEntropy verifyCheckpoints blockAuthoringDelay slot
        futureProofOfTime potSlotIterations potParametersChange seed checkpoints = .ok () ∧
      checkJustificationInputs seedWithEntropy blockAuthoringDelay genesisSeed blockNumber slot
        parentSlot parentFutureProofOfTime potSlotIterations potParametersChange seed
        checkpoints = .ok ()) ↔
      let x₀ := PotNextSlotInput.derive seedWithEntropy potSlotIterations
        (parentSlot + blockAuthoringDelay) parentFutureProofOfTime potParametersChange
      seed = x₀.seed ∧
      checkpoints.length = slot + blockAuthoringDelay - (parentSlot + blockAuthoringDelay) ∧
      (∀ j (hj : j < checkpoints.length),
        let x := chainInput seedWithEntropy potParametersChange x₀ checkpoints j
        prove cipher seedKey x.seed x.slotIterations = .ok checkpoints[j]) ∧
      checkpoints.getLast?.map PotCheckpoints.output = some futureProofOfTime := by
  rw [checkJustification_eq_ok, checkJustificationInputs_eq_ok_of_ne_one _ _ _ nonFirst]
  constructor
  · rintro ⟨⟨anchored, -, chained⟩, seeded, counted⟩
    dsimp only at chained
    rw [firstInput_eq_derive seedWithEntropy _ _ _ _ parentBefore counted seeded] at chained
    exact ⟨seeded, counted, fun j hj => (verified _ _ _).1 (chained j hj), anchored⟩
  · rintro ⟨seeded, counted, chained, anchored⟩
    refine ⟨⟨anchored, by omega, ?_⟩, seeded, counted⟩
    dsimp only
    rw [firstInput_eq_derive seedWithEntropy _ _ _ _ parentBefore counted seeded]
    exact fun j hj => (verified _ _ _).2 (chained j hj)

/-- Two slots after the parent's future slot, with a change of parameters at the second:
from the parent's output `true` the first slot takes sixteen iterations of the identity on
booleans; the second, where the change sets thirty-two iterations and its entropy flips the
seed, starts from `false`. Both checkpoints are accepted, the verifier being `prove` itself. -/
theorem pot_justification_accepted_iff_chain_parameters_change :
    let cipher : BlockCipher Unit Bool :=
      ⟨fun _ b => b, fun _ b => b, fun _ _ => rfl, fun _ _ => rfl⟩
    let verifyCheckpoints : Bool → NonZeroU32 → PotCheckpoints Bool → Bool :=
      fun seed iterations checkpoints => match prove cipher (fun _ => ()) seed iterations with
        | .ok proved => decide (proved = checkpoints)
        | .error _ => false
    let change : Option (PotParametersChange Unit) := some ⟨4, ⟨32, by decide, by decide⟩, ()⟩
    let checkpoints : List (PotCheckpoints Bool) :=
      [⟨List.replicate 8 true, rfl⟩, ⟨List.replicate 8 false, rfl⟩]
    (∀ seed iterations checkpoints, verifyCheckpoints seed iterations checkpoints = true ↔
      prove cipher (fun _ => ()) seed iterations = .ok checkpoints) ∧
    2 ≠ 1 ∧ 1 + 1 < 3 + 1 ∧
    checkJustification (fun b (_ : Unit) => !b) verifyCheckpoints 1 3 false
        ⟨16, by decide, by decide⟩ change true checkpoints = .ok () ∧
      checkJustificationInputs (fun b (_ : Unit) => !b) 1 true 2 3 1 true
        ⟨16, by decide, by decide⟩ change true checkpoints = .ok () := by
  intro cipher verifyCheckpoints change checkpoints
  have verified : ∀ seed iterations checkpoints,
      verifyCheckpoints seed iterations checkpoints = true ↔
        prove cipher (fun _ => ()) seed iterations = .ok checkpoints := by
    intro seed iterations checkpoints
    simp only [verifyCheckpoints]
    split <;> simp_all
  refine ⟨verified, by decide, by decide, ?_⟩
  refine (pot_justification_accepted_iff_chain _ _ cipher _ verified (by decide) (by decide)).2
    ⟨rfl, rfl, ?_, rfl⟩
  -- slot `3` from the parent's output, slot `4` from the flipped output of slot `3`
  intro j hj
  match j, hj with
  | 0, _ =>
    show prove cipher (fun _ => ()) true ⟨16, by decide, by decide⟩ =
      .ok ⟨List.replicate 8 true, rfl⟩
    rfl
  | 1, _ =>
    show prove cipher (fun _ => ()) false ⟨32, by decide, by decide⟩ =
      .ok ⟨List.replicate 8 false, rfl⟩
    rfl

/-- The chain of inputs from the parent does not involve the justification's seed, but
block import checks it: the checkpoints of the parent's output `true` are the whole chain of
the slot after it, and with the seed `false` block import rejects them. -/
theorem pot_justification_seed_outside_chain :
    let cipher : BlockCipher Unit Bool :=
      ⟨fun _ b => b, fun _ b => b, fun _ _ => rfl, fun _ _ => rfl⟩
    let x₀ : PotNextSlotInput Bool := PotNextSlotInput.derive (fun b (_ : Unit) => b)
      ⟨16, by decide, by decide⟩ (0 + 0) true none
    let checkpoints : List (PotCheckpoints Bool) := [⟨List.replicate 8 true, rfl⟩]
    (checkpoints.length = 1 + 0 - (0 + 0) ∧
      (∀ j (hj : j < checkpoints.length),
        let x := chainInput (fun b (_ : Unit) => b) none x₀ checkpoints j
        prove cipher (fun _ => ()) x.seed x.slotIterations = .ok checkpoints[j]) ∧
      checkpoints.getLast?.map PotCheckpoints.output = some true) ∧
    checkJustificationInputs (fun b (_ : Unit) => b) 0 true 2 1 0 true
      ⟨16, by decide, by decide⟩ none false checkpoints =
        .error .invalidSubspaceJustificationContents := by
  refine ⟨⟨rfl, ?_, rfl⟩, rfl⟩
  intro j hj
  obtain rfl : j = 0 := by simpa using hj
  rfl

end Accepted

end Subspace.ProofOfTime
