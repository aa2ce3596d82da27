import Subspace.Lib.KeyedQueues

/-!
# Shuffling the extrinsics of a domain block

`sp-domains/src/extrinsics.rs` orders the extrinsics of a domain block. It groups them by
signer, each group a queue in arrival order, with the unsigned extrinsics as one more group
(the signer `none`). It then shuffles the list of signers with a generator seeded by the
block's randomness and takes, for each shuffled signer, the front of that signer's queue.
`deduplicate_and_shuffle_extrinsics` first drops every extrinsic that already occurred
earlier in the list.

The shuffle itself (ChaCha8 driving a Fisher–Yates shuffle) is a parameter: any function that
permutes every list for the seed. Over it this file proves that neither `expect` of
`shuffle_extrinsics` fires, that the output is the input reordered, and that the extrinsics of
each signer keep their order (`shuffle_extrinsics_signer_stable_permutation`). The retain loop
of `deduplicate_and_shuffle_extrinsics` keeps the first occurrence of each extrinsic, which is
`List.eraseDupsBy` on the extrinsics, so each distinct extrinsic comes out exactly once.
-/

namespace Subspace.Domains

variable {AccountId Extrinsic Randomness : Type}

section Retain

variable [DecidableEq Extrinsic]

/-- The closure of `extrinsics.retain`: an entry whose extrinsic is in `seen` is dropped, any
other is kept and its extrinsic added to `seen`. -/
def retainUnseen :
    List Extrinsic → List (Option AccountId × Extrinsic) → List (Option AccountId × Extrinsic)
  | _, [] => []
  | seen, e :: rest =>
    if e.2 ∈ seen then retainUnseen seen rest else e :: retainUnseen (seen ++ [e.2]) rest

/-- The retain loop keeps, among the entries whose extrinsic is not in `seen`, the first
occurrence of each extrinsic. -/
theorem retainUnseen_eq_eraseDupsBy : ∀ (seen : List Extrinsic)
    (extrinsics : List (Option AccountId × Extrinsic)),
    retainUnseen seen extrinsics =
      (extrinsics.filter fun e => e.2 ∉ seen).eraseDupsBy fun a b => a.2 == b.2
  | _, [] => rfl
  | seen, e :: rest => by
    rw [retainUnseen, List.filter_cons]
    by_cases old : e.2 ∈ seen
    · simp only [old, if_true, not_true_eq_false, decide_false]
      exact retainUnseen_eq_eraseDupsBy seen rest
    · simp only [old, if_false, not_false_eq_true, decide_true, if_true,
        List.eraseDupsBy_cons, List.filter_filter, retainUnseen_eq_eraseDupsBy (seen ++ [e.2])]
      -- seeing `e.2` once more is filtering out the later entries with the same extrinsic
      congr 2
      apply List.filter_congr
      intro b _
      simp [Bool.and_comm]

/-- The retain loop keeps each extrinsic at most once, and keeps every extrinsic of the list
that is not in `seen`. -/
theorem retainUnseen_nodup_mem : ∀ (seen : List Extrinsic)
    (extrinsics : List (Option AccountId × Extrinsic)),
    ((retainUnseen seen extrinsics).map Prod.snd).Nodup ∧
      ∀ x, x ∈ (retainUnseen seen extrinsics).map Prod.snd ↔
        x ∈ extrinsics.map Prod.snd ∧ x ∉ seen
  | _, [] => ⟨List.nodup_nil, fun x => by simp [retainUnseen]⟩
  | seen, e :: rest => by
    rw [retainUnseen]
    by_cases old : e.2 ∈ seen
    · obtain ⟨nodup, mem⟩ := retainUnseen_nodup_mem seen rest
      rw [if_pos old]
      refine ⟨nodup, fun x => ?_⟩
      rw [mem x, List.map_cons, List.mem_cons]
      constructor
      · rintro ⟨member, fresh⟩
        exact ⟨Or.inr member, fresh⟩
      · rintro ⟨rfl | member, fresh⟩
        · exact absurd old fresh
        · exact ⟨member, fresh⟩
    · obtain ⟨nodup, mem⟩ := retainUnseen_nodup_mem (seen ++ [e.2]) rest
      rw [if_neg old, List.map_cons]
      refine ⟨List.nodup_cons.2 ⟨fun member => by simpa using (mem e.2).1 member, nodup⟩,
        fun x => ?_⟩
      rw [List.mem_cons, mem x, List.map_cons, List.mem_cons]
      by_cases same : x = e.2
      · subst same
        simp [old]
      · simp [same]

end Retain

variable [DecidableEq AccountId]

/-- `shuffle_extrinsics`: the signers of the extrinsics, shuffled for the seed, each replaced
by the front of its signer's queue. `none` where one of its two `expect`s fires: the signer
has no queue (`"Extrinsics are grouped correctly"`) or its queue is empty (`"Extrinsic
definitely exists as it's correctly grouped above"`). -/
def shuffleExtrinsics (shuffle : Randomness → List (Option AccountId) → List (Option AccountId))
    (extrinsics : List (Option AccountId × Extrinsic)) (shufflingSeed : Randomness) :
    Option (List Extrinsic) :=
  let positions := shuffle shufflingSeed (extrinsics.map Prod.fst)
  let groupedExtrinsics := BTreeMap.groupBy extrinsics
  groupedExtrinsics.drain positions

/-- `deduplicate_and_shuffle_extrinsics`. -/
def deduplicateAndShuffleExtrinsics [DecidableEq Extrinsic]
    (shuffle : Randomness → List (Option AccountId) → List (Option AccountId))
    (extrinsics : List (Option AccountId × Extrinsic)) (shufflingSeed : Randomness) :
    Option (List Extrinsic) :=
  shuffleExtrinsics shuffle (retainUnseen [] extrinsics) shufflingSeed

/-- The extrinsics come out reordered, those of each signer in the order they came in. -/
structure ShuffledBySigner (extrinsics : List (Option AccountId × Extrinsic))
    (positions : List (Option AccountId)) (shuffled : List Extrinsic) : Prop where
  perm : shuffled.Perm (extrinsics.map Prod.snd)
  signerOrder : ∀ signer, ((positions.zip shuffled).filter (·.1 = signer)).map Prod.snd =
    (extrinsics.filter (·.1 = signer)).map Prod.snd

/-- Shuffling does not panic, and for any shuffle that permutes the signers its output is
stable per signer; deduplicating keeps the first occurrence of each extrinsic, so that each
distinct extrinsic comes out once. -/
theorem shuffle_extrinsics_signer_stable_permutation [DecidableEq Extrinsic]
    (shuffle : Randomness → List (Option AccountId) → List (Option AccountId))
    (shufflingSeed : Randomness) (permutes : ∀ l, (shuffle shufflingSeed l).Perm l)
    (extrinsics : List (Option AccountId × Extrinsic)) :
    (∃ shuffled, shuffleExtrinsics shuffle extrinsics shufflingSeed = some shuffled ∧
      ShuffledBySigner extrinsics (shuffle shufflingSeed (extrinsics.map Prod.fst)) shuffled) ∧
    deduplicateAndShuffleExtrinsics shuffle extrinsics shufflingSeed =
      shuffleExtrinsics shuffle (extrinsics.eraseDupsBy fun a b => a.2 == b.2) shufflingSeed ∧
    ∃ shuffled, deduplicateAndShuffleExtrinsics shuffle extrinsics shufflingSeed = some shuffled ∧
      ∀ x, shuffled.count x = if x ∈ extrinsics.map Prod.snd then 1 else 0 := by
  -- one run of the queues for any list, at the shuffle's permutation of its signers
  have run : ∀ l : List (Option AccountId × Extrinsic), ∃ shuffled,
      shuffleExtrinsics shuffle l shufflingSeed = some shuffled ∧
      ShuffledBySigner l (shuffle shufflingSeed (l.map Prod.fst)) shuffled := by
    intro l
    obtain ⟨shuffled, drained, -, perm, signerOrder⟩ :=
      BTreeMap.drain_groupBy_of_perm (permutes (l.map Prod.fst))
    exact ⟨shuffled, drained, perm, signerOrder⟩
  have retained := retainUnseen_eq_eraseDupsBy [] extrinsics
  simp only [List.not_mem_nil, not_false_eq_true, decide_true, List.filter_true] at retained
  obtain ⟨nodup, mem⟩ := retainUnseen_nodup_mem [] extrinsics
  obtain ⟨deduplicated, drained, perm, -⟩ := run (retainUnseen [] extrinsics)
  refine ⟨run extrinsics, by rw [deduplicateAndShuffleExtrinsics, retained],
    deduplicated, drained, fun x => ?_⟩
  have kept : x ∈ (retainUnseen [] extrinsics).map Prod.snd ↔ x ∈ extrinsics.map Prod.snd := by
    simpa using mem x
  rw [perm.count_eq, nodup.count, if_congr kept rfl rfl]

/-- The shuffle that reverses the signers, on two signed extrinsics and an unsigned one that
comes twice. -/
theorem shuffle_extrinsics_signer_stable_permutation_reversed :
    (∀ l : List (Option Bool), l.reverse.Perm l) ∧
    ((∃ shuffled, shuffleExtrinsics (fun (_ : Unit) l => l.reverse)
        [(some true, 1), (none, 2), (some false, 3), (none, 2)] () = some shuffled ∧
      ShuffledBySigner [(some true, 1), (none, 2), (some false, 3), (none, 2)]
        [none, some false, none, some true] shuffled) ∧
    deduplicateAndShuffleExtrinsics (fun (_ : Unit) l => l.reverse)
        [(some true, 1), (none, 2), (some false, 3), (none, 2)] () =
      shuffleExtrinsics (fun (_ : Unit) l => l.reverse)
        [(some true, 1), (none, 2), (some false, 3)] () ∧
    ∃ shuffled, deduplicateAndShuffleExtrinsics (fun (_ : Unit) l => l.reverse)
        [(some true, 1), (none, 2), (some false, 3), (none, 2)] () = some shuffled ∧
      ∀ x, shuffled.count x = if x ∈ [1, 2, 3, 2] then 1 else 0) :=
  ⟨List.reverse_perm, shuffle_extrinsics_signer_stable_permutation (fun (_ : Unit) l => l.reverse)
    () List.reverse_perm [(some true, (1 : ℕ)), (none, 2), (some false, 3), (none, 2)]⟩

example : deduplicateAndShuffleExtrinsics (fun (_ : Unit) (l : List (Option Bool)) => l.reverse)
    [(some true, 1), (none, 2), (some false, 3), (none, 2)] () = some [3, 2, 1] := by
  decide

end Subspace.Domains
