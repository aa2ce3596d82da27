import Mathlib

/-!
# Block and vote rewards

`pallet-rewards` (`src/crates/pallet-rewards/src/lib.rs`). At the end of every block in which
rewards are enabled, `do_finalize` issues the block reward to the block author and a vote reward
to every voter, out of `RemainingIssuance`. The proposer takes a tax on every vote reward. No
reward exceeds what is left to issue: each is cut down to it in turn, the block reward first,
then every voter's reward and that voter's tax.

The reference subsidy of a block is interpolated linearly between the two reward points the
block lies between (`reference_subsidy_for_block`); after the last point it is the last point's
subsidy, and before the first it is zero. The block reward is the reference subsidy lowered
with the average use of blockspace (`block_reward`).

Balances are natural numbers; the `u128` subtractions of the pallet are guarded by `min` or by
the order of the points, so they do not wrap. The one product that can leave `u128` is the one of
`block_reward`, which is taken modulo `2 ^ 128` as release builds compute it; so are the `u32`
additions of `update_avg_blockspace_usage` and of the point shift.
-/

namespace Subspace.Consensus

variable {AccountId : Type}

/-- `RewardPoint`. -/
structure RewardPoint where
  block : ℕ
  subsidy : ℕ
deriving DecidableEq, Repr

/-- Reward points with strictly increasing blocks and subsidies that do not increase. -/
def RewardPoint.Ordered (points : List RewardPoint) : Prop :=
  points.Pairwise fun earlier later => earlier.block < later.block ∧ later.subsidy ≤ earlier.subsidy

instance : DecidablePred RewardPoint.Ordered := fun points =>
  inferInstanceAs (Decidable (points.Pairwise _))

/-- `reference_subsidy_for_block`. The first two neighbouring points the block lies between give
the subsidy by linear interpolation, with the division before the multiplication; a pair whose
subsidy rises gives no subsidy at all (`checked_sub`). A block after the last point has the last
point's subsidy, and any other block none. -/
def referenceSubsidyForBlock (points : List RewardPoint) (blockHeight : ℕ) : ℕ :=
  let window := (points.zip points.tail).find? fun (start, stop) =>
    start.block ≤ blockHeight ∧ blockHeight < stop.block
  let subsidy := match window with
    | some (start, stop) =>
      if stop.subsidy ≤ start.subsidy then
        some (start.subsidy - (start.subsidy - stop.subsidy) / (stop.block - start.block) *
          (blockHeight - start.block))
      else none
    | none => points.getLast?.bind fun point =>
      if point.block ≤ blockHeight then some point.subsidy else none
  subsidy.getD 0

/-- The constants `do_finalize` reads: those of the pallet's `Config`, the normal block length
of `frame_system` and `TransactionByteFee` at this block. The tax on votes is a fraction of at
most one, and the normal block length is not zero. -/
structure RewardsConfig where
  avgBlockspaceUsageNumBlocks : ℕ
  transactionByteFee : ℕ
  proposerTaxOnVotes : ℕ × ℕ
  maxNormalBlockLength : ℕ
  taxDenominator_pos : 0 < proposerTaxOnVotes.2
  tax_le_one : proposerTaxOnVotes.1 ≤ proposerTaxOnVotes.2
  maxNormalBlockLength_pos : 0 < maxNormalBlockLength

/-- `block_reward`: the reference subsidy less a share, as large as the share of the normal block
length used on average, of the subsidy or of the fee of a full block if that is smaller. -/
def blockReward (config : RewardsConfig) (proposerSubsidyPoints : List RewardPoint)
    (blockHeight avgBlockspaceUsage : ℕ) : ℕ :=
  let referenceSubsidy := referenceSubsidyForBlock proposerSubsidyPoints blockHeight
  -- `saturating_mul`
  let maxBlockFee := min (config.maxNormalBlockLength * config.transactionByteFee) (2 ^ 128 - 1)
  -- a `u128` product
  let rewardDecrease := avgBlockspaceUsage * min referenceSubsidy maxBlockFee % 2 ^ 128 /
    config.maxNormalBlockLength
  -- `saturating_sub`
  referenceSubsidy - rewardDecrease

/-- `vote_reward`. -/
def voteReward (voterSubsidyPoints : List RewardPoint) (blockHeight : ℕ) : ℕ :=
  referenceSubsidyForBlock voterSubsidyPoints blockHeight

/-- `update_avg_blockspace_usage`; `none` where the `expect` of its conversion to `u32` fails. -/
def updateAvgBlockspaceUsage (usedBlockspace oldAvgBlockspaceUsage avgBlockspaceUsageNumBlocks
    blockHeight : ℕ) : Option ℕ :=
  if avgBlockspaceUsageNumBlocks = 0 then some usedBlockspace
  else if blockHeight ≤ avgBlockspaceUsageNumBlocks then
    -- a `u32` sum
    some ((oldAvgBlockspaceUsage + usedBlockspace) % 2 ^ 32 / 2)
  else
    let multiplier := (2, avgBlockspaceUsageNumBlocks + 1)
    let a := multiplier.1 * usedBlockspace
    let b := (multiplier.2 - multiplier.1) * oldAvgBlockspaceUsage
    let average := (a + b) / multiplier.2
    if average < 2 ^ 32 then some average else none

/-- The pallet's storage. -/
structure Rewards where
  avgBlockspaceUsage : ℕ
  rewardsEnabled : Bool
  remainingIssuance : ℕ
  proposerSubsidyPoints : List RewardPoint
  voterSubsidyPoints : List RewardPoint
deriving DecidableEq

/-- `Event`. -/
inductive RewardsEvent (AccountId : Type)
  /-- `BlockReward { block_author, reward }`. -/
  | blockReward (blockAuthor : AccountId) (reward : ℕ)
  /-- `VoteReward { voter, reward }`. -/
  | voteReward (voter : AccountId) (reward : ℕ)
deriving DecidableEq

/-- What `do_finalize` does outside the pallet's storage: the balances it credits with
`Currency::deposit_creating`, and the events it deposits. -/
structure RewardEffects (AccountId : Type) where
  credits : List (AccountId × ℕ)
  events : List (RewardsEvent AccountId)
deriving DecidableEq

/-- What `do_finalize` reads of the block: its number, whether rewards are enabled in
`pallet-subspace`, the length of its extrinsics, the reward address of its author (none when the
author equivocated) and those of its voters. -/
structure RewardBlock (AccountId : Type) where
  blockNumber : ℕ
  runtimeRewardsEnabled : Bool
  allExtrinsicsLen : ℕ
  blockAuthor : Option AccountId
  voters : List AccountId

/-- The first block with rewards moves the reward points to start at that block. -/
def Rewards.startRewards (rewards : Rewards) (blockNumber : ℕ) : Rewards :=
  if !rewards.rewardsEnabled then
    { rewards with
      rewardsEnabled := true
      -- `u32` sums
      proposerSubsidyPoints := rewards.proposerSubsidyPoints.map fun point =>
        { point with block := (point.block + blockNumber) % 2 ^ 32 }
      voterSubsidyPoints := rewards.voterSubsidyPoints.map fun point =>
        { point with block := (point.block + blockNumber) % 2 ^ 32 } }
  else rewards

/-- The loop over the voters of `do_finalize`: what is left to issue, the block reward, and the
vote rewards paid. Each voter takes the vote reward after tax and then the tax, each cut down to
what is left; the tax goes to the block author, or to the voter when the author equivocated. -/
def rewardVoters (authorFound : Bool) (voteReward proposerTax : ℕ) :
    List AccountId → ℕ → ℕ → ℕ × ℕ × List (AccountId × ℕ)
  | [], remainingIssuance, blockReward => (remainingIssuance, blockReward, [])
  | voter :: voters, remainingIssuance, blockReward =>
    let reward := min voteReward remainingIssuance
    let remainingIssuance := remainingIssuance - reward
    let proposerReward := min proposerTax remainingIssuance
    let remainingIssuance := remainingIssuance - proposerReward
    let blockReward := if authorFound then blockReward + proposerReward else blockReward
    let reward := if authorFound then reward else reward + proposerReward
    let more := rewardVoters authorFound voteReward proposerTax voters remainingIssuance blockReward
    (more.1, more.2.1, (if reward ≠ 0 then [(voter, reward)] else []) ++ more.2.2)

/-- What `do_finalize` does once the average use of blockspace is updated: the block reward, cut
down to the remaining issuance, then the voters. It gives what is left to issue, the rewards
paid to the voters and the one paid to the block author. -/
def issueRewards (config : RewardsConfig) (rewards : Rewards) (block : RewardBlock AccountId) :
    ℕ × List (AccountId × ℕ) × List (AccountId × ℕ) :=
  let oldRemainingIssuance := rewards.remainingIssuance
  -- the author may have equivocated, and then there is no block reward
  let blockRewardAmount := match block.blockAuthor with
    | some _ =>
      min (blockReward config rewards.proposerSubsidyPoints block.blockNumber rewards.avgBlockspaceUsage)
        oldRemainingIssuance
    | none => 0
  let remainingIssuance := oldRemainingIssuance - blockRewardAmount
  let voted :=
    if block.voters ≠ [] then
      let voteRewardAmount := voteReward rewards.voterSubsidyPoints block.blockNumber
      let proposerTax := voteRewardAmount / config.proposerTaxOnVotes.2 * config.proposerTaxOnVotes.1
      rewardVoters block.blockAuthor.isSome (voteRewardAmount - proposerTax) proposerTax
        block.voters remainingIssuance blockRewardAmount
    else (remainingIssuance, blockRewardAmount, [])
  let authorCredits := match block.blockAuthor with
    | some blockAuthor => if voted.2.1 ≠ 0 then [(blockAuthor, voted.2.1)] else []
    | none => []
  (voted.1, voted.2.2, authorCredits)

/-- `do_finalize`; `none` where the source panics. -/
def Rewards.doFinalize (config : RewardsConfig) (rewards : Rewards) (block : RewardBlock AccountId) :
    Option (RewardEffects AccountId × Rewards) :=
  if !block.runtimeRewardsEnabled then some (⟨[], []⟩, rewards)
  else
    let rewards := rewards.startRewards block.blockNumber
    match updateAvgBlockspaceUsage block.allExtrinsicsLen rewards.avgBlockspaceUsage
        config.avgBlockspaceUsageNumBlocks block.blockNumber with
    | none => none
    | some avgBlockspaceUsage =>
      let rewards := { rewards with avgBlockspaceUsage }
      let issued := issueRewards config rewards block
      some (⟨issued.2.1 ++ issued.2.2,
          issued.2.1.map (fun (voter, reward) => .voteReward voter reward) ++
            issued.2.2.map fun (blockAuthor, reward) => .blockReward blockAuthor reward⟩,
        { rewards with remainingIssuance := issued.1 })

/-! ## The reference subsidy -/

/-- The subsidy `reference_subsidy_for_block` interpolates between two neighbouring points. -/
def interpolatedSubsidy (start stop : RewardPoint) (blockHeight : ℕ) : ℕ :=
  start.subsidy - (start.subsidy - stop.subsidy) / (stop.block - start.block) *
    (blockHeight - start.block)

section Reference

variable {start stop : RewardPoint} {rest : List RewardPoint} {blockHeight : ℕ}

@[simp]
theorem referenceSubsidyForBlock_nil (blockHeight : ℕ) :
    referenceSubsidyForBlock [] blockHeight = 0 := rfl

theorem referenceSubsidyForBlock_singleton (point : RewardPoint) (blockHeight : ℕ) :
    referenceSubsidyForBlock [point] blockHeight =
      if point.block ≤ blockHeight then point.subsidy else 0 := by
  by_cases after : point.block ≤ blockHeight <;> simp [referenceSubsidyForBlock, after]

/-- Between the first two points the subsidy is interpolated. -/
theorem referenceSubsidyForBlock_cons_cons_of_mem (within : start.block ≤ blockHeight)
    (before : blockHeight < stop.block) (falling : stop.subsidy ≤ start.subsidy) :
    referenceSubsidyForBlock (start :: stop :: rest) blockHeight =
      interpolatedSubsidy start stop blockHeight := by
  simp [referenceSubsidyForBlock, interpolatedSubsidy, within, before, falling]

/-- Outside the first two points the first point plays no part. -/
theorem referenceSubsidyForBlock_cons_cons_of_not_mem
    (outside : ¬(start.block ≤ blockHeight ∧ blockHeight < stop.block)) :
    referenceSubsidyForBlock (start :: stop :: rest) blockHeight =
      referenceSubsidyForBlock (stop :: rest) blockHeight := by
  simp only [referenceSubsidyForBlock, List.tail_cons, List.zip_cons_cons, List.find?_cons,
    List.getLast?_cons_cons]
  rw [decide_eq_false outside]

theorem interpolatedSubsidy_start : interpolatedSubsidy start stop start.block = start.subsidy := by
  simp [interpolatedSubsidy]

theorem interpolatedSubsidy_le : interpolatedSubsidy start stop blockHeight ≤ start.subsidy :=
  Nat.sub_le _ _

/-- The interpolation never falls below the subsidy of the next point: the division comes
first, so at most the whole difference is taken off. -/
theorem le_interpolatedSubsidy (within : start.block ≤ blockHeight) (before : blockHeight < stop.block)
    (falling : stop.subsidy ≤ start.subsidy) :
    stop.subsidy ≤ interpolatedSubsidy start stop blockHeight := by
  have taken : (start.subsidy - stop.subsidy) / (stop.block - start.block) *
      (blockHeight - start.block) ≤ start.subsidy - stop.subsidy :=
    calc (start.subsidy - stop.subsidy) / (stop.block - start.block) * (blockHeight - start.block)
        ≤ (start.subsidy - stop.subsidy) / (stop.block - start.block) * (stop.block - start.block) :=
          Nat.mul_le_mul_left _ (by omega)
      _ ≤ start.subsidy - stop.subsidy := Nat.div_mul_le_self _ _
  unfold interpolatedSubsidy
  omega

theorem interpolatedSubsidy_antitone {earlier later : ℕ} (le : earlier ≤ later) :
    interpolatedSubsidy start stop later ≤ interpolatedSubsidy start stop earlier :=
  Nat.sub_le_sub_left (Nat.mul_le_mul_left _ (Nat.sub_le_sub_right le _)) _

/-- The first point of ordered points comes before all the others. -/
theorem RewardPoint.Ordered.head_lt (ordered : RewardPoint.Ordered (start :: rest)) :
    ∀ point ∈ rest, start.block < point.block ∧ point.subsidy ≤ start.subsidy :=
  (List.pairwise_cons.mp ordered).1

theorem RewardPoint.Ordered.tail (ordered : RewardPoint.Ordered (start :: rest)) :
    RewardPoint.Ordered rest :=
  (List.pairwise_cons.mp ordered).2

/-- At a point, the subsidy is the point's. -/
theorem referenceSubsidyForBlock_head (ordered : RewardPoint.Ordered (start :: rest)) :
    referenceSubsidyForBlock (start :: rest) start.block = start.subsidy := by
  cases rest with
  | nil => simp [referenceSubsidyForBlock_singleton]
  | cons stop rest =>
    obtain ⟨before, falling⟩ := ordered.head_lt stop List.mem_cons_self
    rw [referenceSubsidyForBlock_cons_cons_of_mem (Nat.le_refl _) before falling,
      interpolatedSubsidy_start]

/-- Before the first point there is no subsidy. -/
theorem referenceSubsidyForBlock_of_lt_head :
    ∀ {start : RewardPoint} {rest : List RewardPoint}, RewardPoint.Ordered (start :: rest) →
      blockHeight < start.block → referenceSubsidyForBlock (start :: rest) blockHeight = 0
  | start, [], _, early => by simp [referenceSubsidyForBlock_singleton, Nat.not_le.mpr early]
  | start, stop :: rest, ordered, early => by
    have later := (ordered.head_lt stop List.mem_cons_self).1
    rw [referenceSubsidyForBlock_cons_cons_of_not_mem (by omega)]
    exact referenceSubsidyForBlock_of_lt_head ordered.tail (by omega)

/-- From the last point on, the subsidy is the last point's. -/
theorem referenceSubsidyForBlock_of_getLast_le :
    ∀ {points : List RewardPoint} {last : RewardPoint}, RewardPoint.Ordered points →
      points.getLast? = some last → last.block ≤ blockHeight →
        referenceSubsidyForBlock points blockHeight = last.subsidy
  | [], _, _, found, _ => by simp at found
  | [point], last, _, found, after => by
    simp only [List.getLast?_singleton, Option.some.injEq] at found
    subst found
    simp [referenceSubsidyForBlock_singleton, after]
  | start :: stop :: rest, last, ordered, found, after => by
    rw [List.getLast?_cons_cons] at found
    -- the last point is not before the second one
    have second : stop.block ≤ last.block := by
      rcases List.mem_cons.mp (List.mem_of_getLast? found) with same | later
      · rw [same]
      · exact Nat.le_of_lt (ordered.tail.head_lt last later).1
    rw [referenceSubsidyForBlock_cons_cons_of_not_mem (by omega)]
    exact referenceSubsidyForBlock_of_getLast_le ordered.tail found after

/-- Between two neighbouring points the subsidy lies between theirs. -/
theorem referenceSubsidyForBlock_mem_window :
    ∀ {points : List RewardPoint} (i : ℕ) (bound : i + 1 < points.length),
      RewardPoint.Ordered points → points[i].block ≤ blockHeight → blockHeight < points[i + 1].block →
        points[i + 1].subsidy ≤ referenceSubsidyForBlock points blockHeight ∧
          referenceSubsidyForBlock points blockHeight ≤ points[i].subsidy
  | start :: stop :: rest, 0, _, ordered, within, before => by
    have falling := (ordered.head_lt stop List.mem_cons_self).2
    simp only [List.getElem_cons_zero, List.getElem_cons_succ] at within before ⊢
    rw [referenceSubsidyForBlock_cons_cons_of_mem within before falling]
    exact ⟨le_interpolatedSubsidy within before falling, interpolatedSubsidy_le⟩
  | start :: stop :: rest, i + 1, bound, ordered, within, before => by
    have inner : i + 1 < (stop :: rest).length := by
      simp only [List.length_cons] at bound ⊢
      omega
    have within' : (stop :: rest)[i].block ≤ blockHeight := within
    have before' : blockHeight < (stop :: rest)[i + 1].block := before
    -- the window is further on, so the block is not before the second point
    have second : stop.block ≤ (stop :: rest)[i].block := by
      rcases List.mem_cons.mp (List.getElem_mem (Nat.lt_of_succ_lt inner)) with same | later
      · rw [same]
      · exact Nat.le_of_lt (ordered.tail.head_lt _ later).1
    rw [referenceSubsidyForBlock_cons_cons_of_not_mem (by omega)]
    exact referenceSubsidyForBlock_mem_window i inner ordered.tail within' before'

/-- From the first point on, the subsidy does not increase. -/
theorem referenceSubsidyForBlock_antitone :
    ∀ {points : List RewardPoint} {earlier later : ℕ}, RewardPoint.Ordered points →
      (∀ first ∈ points.head?, first.block ≤ earlier) → earlier ≤ later →
        referenceSubsidyForBlock points later ≤ referenceSubsidyForBlock points earlier
  | [], _, _, _, _, _ => le_rfl
  | [point], earlier, later, _, started, le => by
    have first := started point rfl
    simp [referenceSubsidyForBlock_singleton, first, Nat.le_trans first le]
  | start :: stop :: rest, earlier, later, ordered, started, le => by
    have first : start.block ≤ earlier := started start rfl
    obtain ⟨next, falling⟩ := ordered.head_lt stop List.mem_cons_self
    by_cases inWindow : later < stop.block
    · -- both blocks are between the first two points
      rw [referenceSubsidyForBlock_cons_cons_of_mem (by omega) inWindow falling,
        referenceSubsidyForBlock_cons_cons_of_mem first (by omega) falling]
      exact interpolatedSubsidy_antitone le
    · rw [referenceSubsidyForBlock_cons_cons_of_not_mem (by omega)]
      by_cases pastWindow : stop.block ≤ earlier
      · rw [referenceSubsidyForBlock_cons_cons_of_not_mem (by omega)]
        exact referenceSubsidyForBlock_antitone ordered.tail
          (fun second found => by cases found; exact pastWindow) le
      · -- the window ends between the two blocks, at the second point's subsidy
        rw [referenceSubsidyForBlock_cons_cons_of_mem first (by omega) falling]
        calc referenceSubsidyForBlock (stop :: rest) later
            ≤ referenceSubsidyForBlock (stop :: rest) stop.block :=
              referenceSubsidyForBlock_antitone ordered.tail
                (fun second found => by cases found; exact le_rfl) (by omega)
          _ = stop.subsidy := referenceSubsidyForBlock_head ordered.tail
          _ ≤ interpolatedSubsidy start stop earlier :=
              le_interpolatedSubsidy first (by omega) falling

end Reference

/-! ## The block reward and the average use of blockspace -/

theorem blockReward_le (config : RewardsConfig) (points : List RewardPoint)
    (blockHeight avgBlockspaceUsage : ℕ) :
    blockReward config points blockHeight avgBlockspaceUsage ≤
      referenceSubsidyForBlock points blockHeight :=
  Nat.sub_le _ _

/-- While the product of `block_reward` stays within `u128`, more use of blockspace gives no larger
block reward. -/
theorem blockReward_antitone (config : RewardsConfig) (points : List RewardPoint)
    (blockHeight : ℕ) {lower higher : ℕ} (le : lower ≤ higher)
    (fits : higher * min (referenceSubsidyForBlock points blockHeight)
      (min (config.maxNormalBlockLength * config.transactionByteFee) (2 ^ 128 - 1)) < 2 ^ 128) :
    blockReward config points blockHeight higher ≤ blockReward config points blockHeight lower := by
  unfold blockReward
  dsimp only
  have lowerFits := Nat.lt_of_le_of_lt (Nat.mul_le_mul_right _ le) fits
  rw [Nat.mod_eq_of_lt fits, Nat.mod_eq_of_lt lowerFits]
  exact Nat.sub_le_sub_left (Nat.div_le_div_right (Nat.mul_le_mul_right _ le)) _

/-- Past `u128` the product of `block_reward` wraps: with a subsidy of `2 ^ 127`, the byte fee at
`Balance::max_value()` (its genesis value) and a normal block length of `3932160` bytes, twice the
use of blockspace gives the whole subsidy, more than once the use does. -/
theorem blockReward_rises_with_usage :
    blockReward ⟨0, 2 ^ 128 - 1, (1, 10), 3932160, by decide, by decide, by decide⟩
        [⟨0, 2 ^ 127⟩] 0 1 <
      blockReward ⟨0, 2 ^ 128 - 1, (1, 10), 3932160, by decide, by decide, by decide⟩
        [⟨0, 2 ^ 127⟩] 0 2 := by
  decide

/-- After the first `avgBlockspaceUsageNumBlocks` blocks the average is a weighted mean of the
last average and the blockspace used, so it fits in `u32` and lies between the two. -/
theorem updateAvgBlockspaceUsage_mem {used old numBlocks height : ℕ} (usedFits : used < 2 ^ 32)
    (oldFits : old < 2 ^ 32) (positive : 0 < numBlocks) (late : numBlocks < height) :
    ∃ average, updateAvgBlockspaceUsage used old numBlocks height = some average ∧
      min used old ≤ average ∧ average ≤ max used old := by
  obtain ⟨weight, rfl⟩ : ∃ weight, numBlocks = weight + 1 := ⟨numBlocks - 1, by omega⟩
  have low : min used old * (weight + 2) ≤ 2 * used + weight * old :=
    calc min used old * (weight + 2) = 2 * min used old + weight * min used old := by ring
      _ ≤ 2 * used + weight * old :=
        Nat.add_le_add (Nat.mul_le_mul_left 2 (min_le_left _ _))
          (Nat.mul_le_mul_left weight (min_le_right _ _))
  have high : 2 * used + weight * old ≤ (weight + 2) * max used old :=
    calc 2 * used + weight * old ≤ 2 * max used old + weight * max used old :=
        Nat.add_le_add (Nat.mul_le_mul_left 2 (le_max_left _ _))
          (Nat.mul_le_mul_left weight (le_max_right _ _))
      _ = (weight + 2) * max used old := by ring
  have above := (Nat.le_div_iff_mul_le (by omega : 0 < weight + 2)).mpr low
  have below := Nat.div_le_of_le_mul high
  have fits := Nat.lt_of_le_of_lt below (max_lt usedFits oldFits)
  refine ⟨(2 * used + weight * old) / (weight + 2), ?_, above, below⟩
  have multiplier : weight + 1 + 1 - 2 = weight := by omega
  simp only [updateAvgBlockspaceUsage, Nat.add_one_ne_zero, if_false, if_neg (Nat.not_le.mpr late),
    multiplier, show weight + 1 + 1 = weight + 2 from rfl, fits, if_true]

/-- With `u32` inputs, as the source has them, the `expect` of the update does not fail. -/
theorem updateAvgBlockspaceUsage_isSome {used old : ℕ} (numBlocks height : ℕ) (usedFits : used < 2 ^ 32)
    (oldFits : old < 2 ^ 32) :
    ∃ average, updateAvgBlockspaceUsage used old numBlocks height = some average := by
  by_cases zero : numBlocks = 0
  · exact ⟨used, by simp only [updateAvgBlockspaceUsage, zero, if_true]⟩
  by_cases early : height ≤ numBlocks
  · exact ⟨(old + used) % 2 ^ 32 / 2,
      by simp only [updateAvgBlockspaceUsage, zero, if_false, early, if_true]⟩
  obtain ⟨average, updated, -⟩ :=
    updateAvgBlockspaceUsage_mem usedFits oldFits (Nat.pos_of_ne_zero zero) (Nat.lt_of_not_le early)
  exact ⟨average, updated⟩

/-- The reward schedule of a list of points: where the reference subsidy falls and where it is a
point's own, and how the block reward follows it. -/
structure RewardScheduleBounds (points : List RewardPoint) : Prop where
  antitone : ∀ first ∈ points.head?, ∀ earlier later, first.block ≤ earlier → earlier ≤ later →
    referenceSubsidyForBlock points later ≤ referenceSubsidyForBlock points earlier
  mem_window : ∀ (i : ℕ) (bound : i + 1 < points.length) (blockHeight : ℕ),
    points[i].block ≤ blockHeight → blockHeight < points[i + 1].block →
      points[i + 1].subsidy ≤ referenceSubsidyForBlock points blockHeight ∧
        referenceSubsidyForBlock points blockHeight ≤ points[i].subsidy
  at_point : ∀ (i : ℕ) (bound : i < points.length),
    referenceSubsidyForBlock points points[i].block = points[i].subsidy
  after_last : ∀ last ∈ points.getLast?, ∀ blockHeight, last.block ≤ blockHeight →
    referenceSubsidyForBlock points blockHeight = last.subsidy
  before_first : ∀ first ∈ points.head?, ∀ blockHeight, blockHeight < first.block →
    referenceSubsidyForBlock points blockHeight = 0
  blockReward_le : ∀ config blockHeight avgBlockspaceUsage,
    blockReward config points blockHeight avgBlockspaceUsage ≤
      referenceSubsidyForBlock points blockHeight
  blockReward_antitone : ∀ config blockHeight lower higher, lower ≤ higher →
    higher * min (referenceSubsidyForBlock points blockHeight)
      (min (config.maxNormalBlockLength * config.transactionByteFee) (2 ^ 128 - 1)) < 2 ^ 128 →
    blockReward config points blockHeight higher ≤ blockReward config points blockHeight lower

/-- At a point, even an inner one, the subsidy is the point's. -/
theorem referenceSubsidyForBlock_getElem :
    ∀ {points : List RewardPoint} (i : ℕ) (bound : i < points.length), RewardPoint.Ordered points →
      referenceSubsidyForBlock points points[i].block = points[i].subsidy
  | _ :: _, 0, _, ordered => referenceSubsidyForBlock_head ordered
  | start :: stop :: rest, i + 1, bound, ordered => by
    have inner : i < (stop :: rest).length := by
      simp only [List.length_cons] at bound ⊢
      omega
    have second : stop.block ≤ (stop :: rest)[i].block := by
      rcases List.mem_cons.mp (List.getElem_mem inner) with same | later
      · rw [same]
      · exact Nat.le_of_lt (ordered.tail.head_lt _ later).1
    show referenceSubsidyForBlock (start :: stop :: rest) (stop :: rest)[i].block =
      (stop :: rest)[i].subsidy
    rw [referenceSubsidyForBlock_cons_cons_of_not_mem (by omega)]
    exact referenceSubsidyForBlock_getElem i inner ordered.tail

/-- The reward schedule of ordered points keeps its bounds, and the update of the average use of
blockspace never fails on `u32` inputs and, after the first blocks, stays between the last
average and the blockspace used. -/
theorem reward_schedule_bounded_and_monotone (points : List RewardPoint)
    (ordered : RewardPoint.Ordered points) :
    RewardScheduleBounds points ∧
      (∀ used old numBlocks height, used < 2 ^ 32 → old < 2 ^ 32 →
        ∃ average, updateAvgBlockspaceUsage used old numBlocks height = some average) ∧
      ∀ used old numBlocks height, used < 2 ^ 32 → old < 2 ^ 32 → 0 < numBlocks →
        numBlocks < height → ∃ average, updateAvgBlockspaceUsage used old numBlocks height =
          some average ∧ min used old ≤ average ∧ average ≤ max used old := by
  refine ⟨⟨?_, ?_, ?_, ?_, ?_, fun config => blockReward_le config points, fun config blockHeight _ _ le fits =>
    blockReward_antitone config points blockHeight le fits⟩,
    fun _ _ numBlocks height usedFits oldFits =>
      updateAvgBlockspaceUsage_isSome numBlocks height usedFits oldFits,
    fun _ _ _ _ usedFits oldFits positive late =>
      updateAvgBlockspaceUsage_mem usedFits oldFits positive late⟩
  · intro first found earlier later started le
    exact referenceSubsidyForBlock_antitone ordered
      (fun first' found' => by rw [Option.mem_unique found' found]; exact started) le
  · intro i bound blockHeight within before
    exact referenceSubsidyForBlock_mem_window i bound ordered within before
  · intro i bound
    exact referenceSubsidyForBlock_getElem i bound ordered
  · intro last found blockHeight after
    exact referenceSubsidyForBlock_of_getLast_le ordered found after
  · intro first found blockHeight early
    cases points with
    | nil => rfl
    | cons start rest =>
      cases found
      exact referenceSubsidyForBlock_of_lt_head ordered early

example : RewardScheduleBounds [⟨0, 10⟩, ⟨10, 0⟩] :=
  (reward_schedule_bounded_and_monotone _ (by decide)).1

/-! ## Issuing the rewards -/

/-- What `do_finalize` pays when enough is left to issue: every voter the vote reward after tax,
and the author the block reward with all the taxes; when the author equivocated, every voter the
whole vote reward. A reward of zero is not paid. -/
def fullRewards (config : RewardsConfig) (rewards : Rewards) (block : RewardBlock AccountId) :
    List (AccountId × ℕ) :=
  let reward := blockReward config rewards.proposerSubsidyPoints block.blockNumber
    rewards.avgBlockspaceUsage
  let vote := voteReward rewards.voterSubsidyPoints block.blockNumber
  let tax := vote / config.proposerTaxOnVotes.2 * config.proposerTaxOnVotes.1
  match block.blockAuthor with
  | some blockAuthor =>
    (block.voters.map fun voter => (voter, vote - tax)).filter (·.2 ≠ 0) ++
      if reward + block.voters.length * tax ≠ 0 then
        [(blockAuthor, reward + block.voters.length * tax)]
      else []
  | none => (block.voters.map fun voter => (voter, vote)).filter (·.2 ≠ 0)

/-- What `do_finalize` is asked to pay: the block reward when the author did not equivocate, and
every voter's whole vote reward. -/
def rewardsDemand (config : RewardsConfig) (rewards : Rewards) (block : RewardBlock AccountId) : ℕ :=
  let reward := match block.blockAuthor with
    | some _ => blockReward config rewards.proposerSubsidyPoints block.blockNumber
      rewards.avgBlockspaceUsage
    | none => 0
  reward + block.voters.length * voteReward rewards.voterSubsidyPoints block.blockNumber

/-- What `do_finalize` pays, in closed form: it issues the demand or all that is left if that is
less, the block reward first. The voter at index `i` is paid its reward after tax, or its whole
reward when the author equivocated, cut down to what the block reward and the `i` voters before
it leave; the author is paid the rest. -/
def greedyRewards (config : RewardsConfig) (rewards : Rewards) (block : RewardBlock AccountId) :
    List (AccountId × ℕ) :=
  let remainingIssuance := rewards.remainingIssuance
  let reward := match block.blockAuthor with
    | some _ => blockReward config rewards.proposerSubsidyPoints block.blockNumber
      rewards.avgBlockspaceUsage
    | none => 0
  let vote := voteReward rewards.voterSubsidyPoints block.blockNumber
  let tax := vote / config.proposerTaxOnVotes.2 * config.proposerTaxOnVotes.1
  let left := remainingIssuance - min reward remainingIssuance
  let voterCredits := (block.voters.mapIdx fun i voter => (voter,
    if block.blockAuthor.isSome then min (vote - tax) (left - i * vote)
    else min vote (left - i * vote))).filter (·.2 ≠ 0)
  let issued := min (rewardsDemand config rewards block) remainingIssuance
  voterCredits ++ match block.blockAuthor with
    | some blockAuthor =>
      let authorReward := issued - (voterCredits.map Prod.snd).sum
      if authorReward ≠ 0 then [(blockAuthor, authorReward)] else []
    | none => []

/-- A reward is paid only when it is not zero, so what is paid is the reward. -/
theorem sum_paidReward (account : AccountId) (reward : ℕ) :
    (((if reward ≠ 0 then [(account, reward)] else []) : List (AccountId × ℕ)).map
      Prod.snd).sum = reward := by
  by_cases zero : reward = 0 <;> simp [zero]

/-- The proposer's tax is at most the vote reward. -/
theorem proposerTax_le (config : RewardsConfig) (vote : ℕ) :
    vote / config.proposerTaxOnVotes.2 * config.proposerTaxOnVotes.1 ≤ vote :=
  calc vote / config.proposerTaxOnVotes.2 * config.proposerTaxOnVotes.1
      ≤ vote / config.proposerTaxOnVotes.2 * config.proposerTaxOnVotes.2 :=
        Nat.mul_le_mul_left _ config.tax_le_one
    _ ≤ vote := Nat.div_mul_le_self _ _

section Voters

variable (authorFound : Bool) (voteReward proposerTax : ℕ)

/-- The loop over the voters pays out what it takes from the remaining issuance, less what it
adds to the block reward. -/
theorem rewardVoters_conserves (voters : List AccountId) (remainingIssuance blockReward : ℕ) :
    (rewardVoters authorFound voteReward proposerTax voters remainingIssuance blockReward).1 +
        ((rewardVoters authorFound voteReward proposerTax voters remainingIssuance
          blockReward).2.2.map Prod.snd).sum +
        (rewardVoters authorFound voteReward proposerTax voters remainingIssuance blockReward).2.1 =
      remainingIssuance + blockReward := by
  induction voters generalizing remainingIssuance blockReward with
  | nil => simp [rewardVoters]
  | cons voter voters ih =>
    -- the voter's reward, then the tax, each cut down to what is left
    have reward := min_le_right voteReward remainingIssuance
    have tax := min_le_right proposerTax (remainingIssuance - min voteReward remainingIssuance)
    simp only [rewardVoters, List.map_append, List.sum_append, sum_paidReward]
    cases authorFound with
    | false =>
      have more := ih (remainingIssuance - min voteReward remainingIssuance -
        min proposerTax (remainingIssuance - min voteReward remainingIssuance)) blockReward
      simp only [Bool.false_eq_true, if_false] at more ⊢
      omega
    | true =>
      have more := ih (remainingIssuance - min voteReward remainingIssuance -
        min proposerTax (remainingIssuance - min voteReward remainingIssuance))
        (blockReward + min proposerTax (remainingIssuance - min voteReward remainingIssuance))
      simp only [if_true] at more ⊢
      omega

theorem le_rewardVoters_blockReward (voters : List AccountId) (remainingIssuance blockReward : ℕ) :
    blockReward ≤
      (rewardVoters authorFound voteReward proposerTax voters remainingIssuance blockReward).2.1 := by
  induction voters generalizing remainingIssuance blockReward with
  | nil => exact le_rfl
  | cons voter voters ih =>
    simp only [rewardVoters]
    cases authorFound with
    | false => exact ih _ _
    | true => exact Nat.le_trans (Nat.le_add_right _ _) (ih _ _)

/-- With enough left to issue, every voter takes the whole vote reward and the whole tax. -/
theorem rewardVoters_of_le (voters : List AccountId) (remainingIssuance blockReward : ℕ)
    (enough : voters.length * (voteReward + proposerTax) ≤ remainingIssuance) :
    rewardVoters authorFound voteReward proposerTax voters remainingIssuance blockReward =
      (remainingIssuance - voters.length * (voteReward + proposerTax),
        (if authorFound then blockReward + voters.length * proposerTax else blockReward),
        (voters.map fun voter =>
          (voter, if authorFound then voteReward else voteReward + proposerTax)).filter (·.2 ≠ 0)) := by
  induction voters generalizing remainingIssuance blockReward with
  | nil => simp [rewardVoters]
  | cons voter voters ih =>
    rw [List.length_cons, Nat.succ_mul] at enough
    have reward : min voteReward remainingIssuance = voteReward := min_eq_left (by omega)
    have tax : min proposerTax (remainingIssuance - voteReward) = proposerTax := min_eq_left (by omega)
    simp only [rewardVoters, reward, tax, List.length_cons, Nat.succ_mul, List.map_cons,
      List.filter_cons]
    cases authorFound with
    | false =>
      rw [ih (remainingIssuance - voteReward - proposerTax) _ (by omega)]
      simp only [Bool.false_eq_true, if_false, Prod.mk.injEq, true_and]
      refine ⟨by omega, ?_⟩
      -- the voter is paid the reward and the tax together
      generalize voteReward + proposerTax = paid
      by_cases zero : paid = 0 <;> simp [zero]
    | true =>
      rw [ih (remainingIssuance - voteReward - proposerTax) _ (by omega)]
      simp only [if_true, Prod.mk.injEq]
      refine ⟨by omega, by omega, ?_⟩
      by_cases zero : voteReward = 0 <;> simp [zero]

/-- `rewardVoters_conserves` for a loop whose result is named. -/
theorem rewardVoters_conserves_of_eq {voters : List AccountId} {remainingIssuance blockReward : ℕ}
    {result : ℕ × ℕ × List (AccountId × ℕ)}
    (looped : rewardVoters authorFound voteReward proposerTax voters remainingIssuance blockReward =
      result) :
    result.1 + (result.2.2.map Prod.snd).sum + result.2.1 = remainingIssuance + blockReward ∧
      blockReward ≤ result.2.1 := by
  rw [← looped]
  exact ⟨rewardVoters_conserves authorFound voteReward proposerTax voters remainingIssuance blockReward,
    le_rewardVoters_blockReward authorFound voteReward proposerTax voters remainingIssuance blockReward⟩

/-- Without a block author the loop leaves the block reward as it is. -/
theorem rewardVoters_blockReward_of_not_found :
    ∀ (voters : List AccountId) (remainingIssuance blockReward : ℕ),
      (rewardVoters false voteReward proposerTax voters remainingIssuance blockReward).2.1 =
        blockReward
  | [], _, _ => rfl
  | _ :: voters, _, blockReward => rewardVoters_blockReward_of_not_found voters _ blockReward

/-- What is left after the loop: every voter takes its reward and its tax, together, in full or
all that is left. -/
theorem rewardVoters_remaining (voters : List AccountId) (remainingIssuance blockReward : ℕ) :
    (rewardVoters authorFound voteReward proposerTax voters remainingIssuance blockReward).1 =
      remainingIssuance - min (voters.length * (voteReward + proposerTax)) remainingIssuance := by
  induction voters generalizing remainingIssuance blockReward with
  | nil => simp [rewardVoters]
  | cons voter voters ih =>
    simp only [rewardVoters, ih, List.length_cons, Nat.succ_mul]
    omega

/-- The loop in closed form: the voter at index `i` takes its reward, or its reward and its tax
when the author equivocated, cut down to what the `i` voters before it leave. -/
theorem rewardVoters_credits (voters : List AccountId) (remainingIssuance blockReward : ℕ) :
    (rewardVoters authorFound voteReward proposerTax voters remainingIssuance blockReward).2.2 =
      (voters.mapIdx fun i voter => (voter,
        if authorFound then min voteReward (remainingIssuance - i * (voteReward + proposerTax))
        else min (voteReward + proposerTax)
          (remainingIssuance - i * (voteReward + proposerTax)))).filter (·.2 ≠ 0) := by
  induction voters generalizing remainingIssuance blockReward with
  | nil => rfl
  | cons voter voters ih =>
    simp only [rewardVoters, ih, List.mapIdx_cons, List.filter_cons]
    -- what the first voter leaves is what the later voters see, one index earlier
    have left : ∀ i : ℕ, remainingIssuance - min voteReward remainingIssuance -
        min proposerTax (remainingIssuance - min voteReward remainingIssuance) -
          i * (voteReward + proposerTax) =
        remainingIssuance - (i + 1) * (voteReward + proposerTax) := by
      intro i
      rw [Nat.succ_mul]
      omega
    simp only [left]
    cases authorFound with
    | false =>
      have first : min voteReward remainingIssuance +
          min proposerTax (remainingIssuance - min voteReward remainingIssuance) =
          min (voteReward + proposerTax) (remainingIssuance - 0 * (voteReward + proposerTax)) := by
        omega
      simp only [Bool.false_eq_true, if_false, first]
      generalize min (voteReward + proposerTax) (remainingIssuance - 0 * (voteReward + proposerTax)) =
        paid
      by_cases zero : paid = 0 <;> simp [zero]
    | true =>
      simp only [if_true, Nat.zero_mul, Nat.sub_zero]
      generalize min voteReward remainingIssuance = paid
      by_cases zero : paid = 0 <;> simp [zero]

/-- The block reward grows by what the loop takes and does not pay to the voters. -/
theorem rewardVoters_blockReward_eq (voters : List AccountId) (remainingIssuance blockReward : ℕ) :
    (rewardVoters authorFound voteReward proposerTax voters remainingIssuance blockReward).2.1 =
      blockReward + min (voters.length * (voteReward + proposerTax)) remainingIssuance -
        ((rewardVoters authorFound voteReward proposerTax voters remainingIssuance
          blockReward).2.2.map Prod.snd).sum := by
  have conserved := rewardVoters_conserves authorFound voteReward proposerTax voters
    remainingIssuance blockReward
  rw [rewardVoters_remaining] at conserved
  omega

end Voters

section Issue

variable (config : RewardsConfig) (rewards : Rewards) (block : RewardBlock AccountId)

/-- The rewards paid are what is taken from the remaining issuance. -/
theorem issueRewards_conserves :
    (issueRewards config rewards block).1 ≤ rewards.remainingIssuance ∧
      (((issueRewards config rewards block).2.1 ++ (issueRewards config rewards block).2.2).map
        Prod.snd).sum = rewards.remainingIssuance - (issueRewards config rewards block).1 := by
  unfold issueRewards
  cases author : block.blockAuthor with
  | none =>
    -- no block reward, and the taxes go to the voters
    dsimp only
    by_cases voted : block.voters ≠ []
    · rw [if_pos voted]
      generalize looped : rewardVoters _ _ _ _ _ _ = result
      obtain ⟨conserved, -⟩ := rewardVoters_conserves_of_eq _ _ _ looped
      have kept : result.2.1 = 0 := by
        rw [← looped]
        exact rewardVoters_blockReward_of_not_found _ _ _ _ _
      simp only [List.append_nil]
      omega
    · rw [if_neg voted]
      simp
  | some blockAuthor =>
    dsimp only
    have amountLe := min_le_right (blockReward config rewards.proposerSubsidyPoints
      block.blockNumber rewards.avgBlockspaceUsage) rewards.remainingIssuance
    by_cases voted : block.voters ≠ []
    · rw [if_pos voted]
      generalize looped : rewardVoters _ _ _ _ _ _ = result
      obtain ⟨conserved, grows⟩ := rewardVoters_conserves_of_eq _ _ _ looped
      simp only [List.map_append, List.sum_append, sum_paidReward]
      omega
    · rw [if_neg voted]
      simp only [List.nil_append, sum_paidReward]
      omega


/-- What is left to issue: the demand is taken, or all that was left if that is less. -/
theorem issueRewards_remaining :
    (issueRewards config rewards block).1 =
      rewards.remainingIssuance - min (rewardsDemand config rewards block) rewards.remainingIssuance := by
  have whole := Nat.sub_add_cancel
    (proposerTax_le config (voteReward rewards.voterSubsidyPoints block.blockNumber))
  unfold issueRewards rewardsDemand
  cases author : block.blockAuthor with
  | none =>
    dsimp only
    by_cases voted : block.voters ≠ []
    · rw [if_pos voted, rewardVoters_remaining, whole]
      omega
    · rw [if_neg voted, not_not.mp voted]
      simp
  | some blockAuthor =>
    dsimp only
    by_cases voted : block.voters ≠ []
    · rw [if_pos voted, rewardVoters_remaining, whole]
      omega
    · rw [if_neg voted, not_not.mp voted]
      simp only [List.length_nil, Nat.zero_mul, Nat.add_zero]

/-- `issueRewards` pays what `greedyRewards` says. -/
theorem issueRewards_greedy :
    (issueRewards config rewards block).2.1 ++ (issueRewards config rewards block).2.2 =
      greedyRewards config rewards block := by
  have whole := Nat.sub_add_cancel
    (proposerTax_le config (voteReward rewards.voterSubsidyPoints block.blockNumber))
  unfold issueRewards greedyRewards
  cases author : block.blockAuthor with
  | none =>
    dsimp only
    by_cases voted : block.voters ≠ []
    · rw [if_pos voted, rewardVoters_credits, whole]
      rfl
    · rw [if_neg voted, not_not.mp voted]
      rfl
  | some blockAuthor =>
    have demand : rewardsDemand config rewards block =
        blockReward config rewards.proposerSubsidyPoints block.blockNumber
          rewards.avgBlockspaceUsage +
        block.voters.length * voteReward rewards.voterSubsidyPoints block.blockNumber := by
      simp only [rewardsDemand, author]
    dsimp only
    rw [demand]
    by_cases voted : block.voters ≠ []
    · rw [if_pos voted, rewardVoters_blockReward_eq, rewardVoters_credits, whole]
      -- the block reward and then the voters take the demand or all that was left
      have issued : ∀ reward remainingIssuance votes : ℕ, min reward remainingIssuance +
          min votes (remainingIssuance - min reward remainingIssuance) =
          min (reward + votes) remainingIssuance := by
        intro reward remainingIssuance votes
        omega
      rw [issued]
    · rw [if_neg voted, not_not.mp voted]
      simp

/-- Three left against a block reward of ten: the author takes all three and the voters none. -/
example : greedyRewards ⟨0, 1, (1, 10), 1, by decide, by decide, by decide⟩
    ⟨0, true, 3, [⟨0, 10⟩], [⟨0, 5⟩]⟩ (⟨1, true, 0, some 0, [1, 2]⟩ : RewardBlock ℕ) = [(0, 3)] := by
  decide

/-- With enough left to issue, `issueRewards` pays what `fullRewards` says. -/
theorem issueRewards_full (enough : rewardsDemand config rewards block ≤ rewards.remainingIssuance) :
    (issueRewards config rewards block).2.1 ++ (issueRewards config rewards block).2.2 =
      fullRewards config rewards block := by
  have whole := Nat.sub_add_cancel
    (proposerTax_le config (voteReward rewards.voterSubsidyPoints block.blockNumber))
  unfold issueRewards fullRewards
  cases author : block.blockAuthor with
  | none =>
    simp only [rewardsDemand, author, Nat.zero_add] at enough
    dsimp only
    by_cases voted : block.voters ≠ []
    · rw [if_pos voted, rewardVoters_of_le _ _ _ _ _ _ (by rw [whole]; omega), whole]
      simp
    · rw [if_neg voted, not_not.mp voted]
      rfl
  | some blockAuthor =>
    simp only [rewardsDemand, author] at enough
    have cut : min (blockReward config rewards.proposerSubsidyPoints block.blockNumber
        rewards.avgBlockspaceUsage) rewards.remainingIssuance =
        blockReward config rewards.proposerSubsidyPoints block.blockNumber
          rewards.avgBlockspaceUsage := min_eq_left (by omega)
    dsimp only
    rw [cut]
    by_cases voted : block.voters ≠ []
    · rw [if_pos voted, rewardVoters_of_le _ _ _ _ _ _ (by rw [whole]; omega)]
      simp
    · rw [if_neg voted, not_not.mp voted]
      simp

end Issue


/-! ## `do_finalize` -/

@[simp]
theorem Rewards.startRewards_avgBlockspaceUsage (rewards : Rewards) (blockNumber : ℕ) :
    (rewards.startRewards blockNumber).avgBlockspaceUsage = rewards.avgBlockspaceUsage := by
  unfold Rewards.startRewards
  split <;> rfl

@[simp]
theorem Rewards.startRewards_remainingIssuance (rewards : Rewards) (blockNumber : ℕ) :
    (rewards.startRewards blockNumber).remainingIssuance = rewards.remainingIssuance := by
  unfold Rewards.startRewards
  split <;> rfl

/-- A block with rewards enabled issues from the state with the points started and the average
use of blockspace updated, and leaves that state with what is left to issue. -/
theorem Rewards.doFinalize_of_updated (config : RewardsConfig) (rewards : Rewards)
    (block : RewardBlock AccountId) (enabled : block.runtimeRewardsEnabled = true) {average : ℕ}
    (updated : updateAvgBlockspaceUsage block.allExtrinsicsLen rewards.avgBlockspaceUsage
      config.avgBlockspaceUsageNumBlocks block.blockNumber = some average) :
    ∃ events, rewards.doFinalize config block = some
      (⟨(issueRewards config { rewards.startRewards block.blockNumber with
            avgBlockspaceUsage := average } block).2.1 ++
          (issueRewards config { rewards.startRewards block.blockNumber with
            avgBlockspaceUsage := average } block).2.2, events⟩,
        { rewards.startRewards block.blockNumber with
          avgBlockspaceUsage := average
          remainingIssuance := (issueRewards config { rewards.startRewards block.blockNumber with
            avgBlockspaceUsage := average } block).1 }) := by
  unfold Rewards.doFinalize
  rw [if_neg (by simp [enabled])]
  dsimp only
  rw [Rewards.startRewards_avgBlockspaceUsage, updated]
  exact ⟨_, rfl⟩

/-- What a block pays out of `rewards.remainingIssuance`, leaving `remainingIssuance`: no more
than there is, all of it credited, and the demand cut down greedily, the block reward first. -/
structure RewardsIssued (config : RewardsConfig) (rewards : Rewards) (block : RewardBlock AccountId)
    (effects : RewardEffects AccountId) (remainingIssuance : ℕ) : Prop where
  within : remainingIssuance ≤ rewards.remainingIssuance
  conserved : (effects.credits.map Prod.snd).sum = rewards.remainingIssuance - remainingIssuance
  issued : remainingIssuance = rewards.remainingIssuance -
    min (rewardsDemand config rewards block) rewards.remainingIssuance
  greedy : effects.credits = greedyRewards config rewards block
  full : rewardsDemand config rewards block ≤ rewards.remainingIssuance →
    effects.credits = fullRewards config rewards block

/-- Every block with rewards enabled pays its rewards: the `expect` of `do_finalize` does not fail
on `u32` inputs, and the payments are those of `RewardsIssued`, issued from the state whose points
are started and whose average use of blockspace is updated. `startRewards` keeps the remaining
issuance, so that state has the remaining issuance of `rewards`. -/
theorem rewards_issued_within_remaining_issuance (config : RewardsConfig) (rewards : Rewards)
    (block : RewardBlock AccountId) (enabled : block.runtimeRewardsEnabled = true)
    (usedFits : block.allExtrinsicsLen < 2 ^ 32) (oldFits : rewards.avgBlockspaceUsage < 2 ^ 32) :
    ∃ average effects remainingIssuance,
      updateAvgBlockspaceUsage block.allExtrinsicsLen rewards.avgBlockspaceUsage
        config.avgBlockspaceUsageNumBlocks block.blockNumber = some average ∧
      rewards.doFinalize config block = some (effects,
        { rewards.startRewards block.blockNumber with avgBlockspaceUsage := average, remainingIssuance }) ∧
      RewardsIssued config { rewards.startRewards block.blockNumber with avgBlockspaceUsage := average }
        block effects remainingIssuance := by
  obtain ⟨average, updated⟩ := updateAvgBlockspaceUsage_isSome config.avgBlockspaceUsageNumBlocks
    block.blockNumber usedFits oldFits
  obtain ⟨events, finalized⟩ := Rewards.doFinalize_of_updated config rewards block enabled updated
  have conserved := issueRewards_conserves config
    { rewards.startRewards block.blockNumber with avgBlockspaceUsage := average } block
  exact ⟨average, _, _, updated, finalized, conserved.1, conserved.2,
    issueRewards_remaining _ _ _, issueRewards_greedy _ _ _, issueRewards_full _ _ _⟩

theorem rewards_issued_within_remaining_issuance_short :
    (⟨1, true, 0, some 0, [1, 2]⟩ : RewardBlock ℕ).runtimeRewardsEnabled = true ∧
      (⟨1, true, 0, some 0, [1, 2]⟩ : RewardBlock ℕ).allExtrinsicsLen < 2 ^ 32 ∧
      (⟨0, true, 3, [⟨0, 10⟩], [⟨0, 5⟩]⟩ : Rewards).avgBlockspaceUsage < 2 ^ 32 ∧
      ∃ average effects remainingIssuance,
        updateAvgBlockspaceUsage 0 0 0 1 = some average ∧
        (⟨0, true, 3, [⟨0, 10⟩], [⟨0, 5⟩]⟩ : Rewards).doFinalize
            ⟨0, 1, (1, 10), 1, by decide, by decide, by decide⟩
            (⟨1, true, 0, some 0, [1, 2]⟩ : RewardBlock ℕ) =
          some (effects, { (⟨0, true, 3, [⟨0, 10⟩], [⟨0, 5⟩]⟩ : Rewards).startRewards 1 with
            avgBlockspaceUsage := average, remainingIssuance }) ∧
        RewardsIssued ⟨0, 1, (1, 10), 1, by decide, by decide, by decide⟩
          { (⟨0, true, 3, [⟨0, 10⟩], [⟨0, 5⟩]⟩ : Rewards).startRewards 1 with
            avgBlockspaceUsage := average }
          (⟨1, true, 0, some 0, [1, 2]⟩ : RewardBlock ℕ) effects remainingIssuance :=
  ⟨rfl, by decide, by decide,
    rewards_issued_within_remaining_issuance ⟨0, 1, (1, 10), 1, by decide, by decide, by decide⟩
      ⟨0, true, 3, [⟨0, 10⟩], [⟨0, 5⟩]⟩ ⟨1, true, 0, some 0, [1, 2]⟩ rfl (by decide) (by decide)⟩

end Subspace.Consensus
