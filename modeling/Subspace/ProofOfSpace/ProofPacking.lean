import Subspace.ProofOfSpace.TablesSpec
import Subspace.Lib.Bits

/-!
# Packing the `x`s of a proof

`find_proof_internal` writes each `x` of a proof `K` bits wide, big-endian,
at bit `K · offset` of the proof bytes, and `verify_only` reads the `x` at
each offset back from the same bits. Both are read here as acting on the bit
string of the bytes (`Lib.bitOf`):

1. `bitOf_writeX`: writing one `x` sets the bits of its field to those of `x`
   and leaves every other bit as it was;
2. `bitOf_writeProof`: the bits of a written proof are those of its `x`s, one
   field after the other (the invariant of the loop over the `x`s);
3. `testBit_proofX`: the `x` read at an offset has the bits of the field there;
4. `proofX_writeProof`: reading a written proof gives back its `x`s, so the
   verifier starts from the leaves of the prover's tree
   (`proofLeaves_writeProof`);
5. `find_proof_proofs_verify`: every proof `find_proof` gives is accepted by
   `verify_only` with the same challenge.
-/

namespace Subspace.ProofOfSpace

open Lib

variable {hashes : PosHashes} {k : ℕ}

section Field

/-- Bit `p` of the `u32` holding `x` shifted left by `s`. -/
theorem testBit_shiftedU32 (x s : ℕ) {p : ℕ} (inWord : p < 32) :
    (x * 2 ^ s % 2 ^ 32).testBit p = (decide (s ≤ p) && x.testBit (p - s)) := by
  rw [Nat.testBit_mod_two_pow, Nat.testBit_mul_two_pow, decide_eq_true inWord, Bool.true_and]

/-- Bit `t` of byte `j` of the big-endian bytes of a `u32` (`to_be_bytes`). -/
theorem testBit_u32Bytes (w : ℕ) {j t : ℕ} (byteIndex : j < 4) (bitIndex : t < 8) :
    ([w / 2 ^ 24 % 256, w / 2 ^ 16 % 256, w / 2 ^ 8 % 256, w % 256].getD j 0).testBit t =
      w.testBit (8 * (3 - j) + t) := by
  have byteBit : ∀ n, (w / 2 ^ n % 256).testBit t = w.testBit (n + t) := fun n => by
    rw [show (256 : ℕ) = 2 ^ 8 from rfl, Nat.testBit_mod_two_pow, Nat.testBit_div_two_pow,
      decide_eq_true bitIndex, Bool.true_and, Nat.add_comm t n]
  interval_cases j
  · simpa using byteBit 24
  · simpa using byteBit 16
  · simpa using byteBit 8
  · simpa using byteBit 0

theorem getD_u32Bytes_lt (w j : ℕ) :
    [w / 2 ^ 24 % 256, w / 2 ^ 16 % 256, w / 2 ^ 8 % 256, w % 256].getD j 0 < 256 := by
  rcases j with _ | _ | _ | _ | j <;> simp [Nat.mod_lt]

/-- Where the bits of a `K`-bit field at bit `off` fall in the `u32` written
over the bytes from `off / 8` on: bit `i` of the proof is bit
`8 · (3 - (i / 8 - off / 8)) + 7 - i % 8` of the word, and the word holds `x`
shifted left by `32 - (K + off % 8)`. The bits of the word before and after
the field are zero. -/
theorem fieldBit_eq {x : ℕ} (fits : x < 2 ^ k) (small : k ≤ 25) {off i : ℕ}
    (fromStart : off / 8 ≤ i / 8) (inWord : i / 8 < off / 8 + 4) :
    (decide (32 - (k + off % 8) ≤ 8 * (3 - (i / 8 - off / 8)) + (7 - i % 8)) &&
        x.testBit (8 * (3 - (i / 8 - off / 8)) + (7 - i % 8) - (32 - (k + off % 8)))) =
      (decide (off ≤ i ∧ i < off + k) && x.testBit (off + k - 1 - i)) := by
  by_cases field : off ≤ i ∧ i < off + k
  · rw [decide_eq_true field, decide_eq_true (by omega),
      show 8 * (3 - (i / 8 - off / 8)) + (7 - i % 8) - (32 - (k + off % 8)) = off + k - 1 - i by omega]
  · rw [decide_eq_false field, Bool.false_and]
    by_cases before : i < off
    · -- the bits of the first byte before the field are bits of `x` from `K` on
      have above : x.testBit (8 * (3 - (i / 8 - off / 8)) + (7 - i % 8) - (32 - (k + off % 8))) = false :=
        Nat.testBit_lt_two_pow (lt_of_lt_of_le fits (Nat.pow_le_pow_right two_pos (by omega)))
      rw [above, Bool.and_false]
    · rw [decide_eq_false (by omega), Bool.false_and]

end Field

section Write

/-- Writing one `x` sets the bits of its field, `K` bits from bit `K · offset`,
to those of `x`, most significant first, and keeps all others. The field
must lie in the proof; `x` must fit in `K` bits. -/
theorem bitOf_writeX (proof : List ℕ) {x : ℕ} (offset : ℕ) (small : k ≤ 25) (fits : x < 2 ^ k)
    (inside : (k * offset + k + 7) / 8 ≤ proof.length) (i : ℕ) :
    bitOf (Tables.writeX k proof x offset) i =
      (bitOf proof i ||
        (decide (k * offset ≤ i ∧ i < k * offset + k) && x.testBit (k * offset + k - 1 - i))) := by
  simp only [Tables.writeX]
  rw [bitOf_mapIdx]
  generalize k * offset = off at inside ⊢
  by_cases inProof : i / 8 < proof.length
  · rw [List.getElem?_eq_getElem inProof, Option.map_some, Option.getD_some, bitOf_eq_getElem inProof]
    by_cases window : off / 8 ≤ i / 8 ∧ i / 8 < off / 8 + min ((off % 8 + k + 7) / 8) 4
    · -- the byte is OR-ed with a byte of the shifted `x`
      rw [if_pos window, Nat.testBit_lor, testBit_u32Bytes _ (by omega) (by omega),
        testBit_shiftedU32 _ _ (by omega), fieldBit_eq fits small (by omega) (by omega)]
    · have outside : ¬ (off ≤ i ∧ i < off + k) := by omega
      rw [if_neg window, decide_eq_false outside, Bool.false_and, Bool.or_false]
  · have outside : ¬ (off ≤ i ∧ i < off + k) := by omega
    rw [List.getElem?_eq_none (by omega), Option.map_none, Option.getD_none, Nat.zero_testBit,
      bitOf_eq_false (by omega), decide_eq_false outside, Bool.false_and, Bool.or_false]

@[simp]
theorem length_writeX (proof : List ℕ) (x offset : ℕ) :
    (Tables.writeX k proof x offset).length = proof.length := by
  simp [Tables.writeX]

theorem writeX_lt {proof : List ℕ} (bytesLt : ∀ byte ∈ proof, byte < 256) (x offset : ℕ) :
    ∀ byte ∈ Tables.writeX k proof x offset, byte < 256 := by
  intro byte member
  simp only [Tables.writeX] at member
  obtain ⟨i, within, rfl⟩ := List.mem_mapIdx.mp member
  have old : proof[i] < 2 ^ 8 := bytesLt _ (List.getElem_mem within)
  split
  · exact Nat.or_lt_two_pow old (getD_u32Bytes_lt _ _)
  · exact old

theorem writeProof_append_singleton (xs : List ℕ) (x : ℕ) :
    Tables.writeProof k (xs ++ [x]) = Tables.writeX k (Tables.writeProof k xs) x xs.length := by
  simp [Tables.writeProof, List.zipIdx_append]

@[simp]
theorem length_writeProof (xs : List ℕ) : (Tables.writeProof k xs).length = 64 * k / 8 := by
  induction xs using List.reverseRecOn with
  | nil => simp [Tables.writeProof]
  | append_singleton xs x ih => rw [writeProof_append_singleton, length_writeX, ih]

theorem writeProof_lt (xs : List ℕ) : ∀ byte ∈ Tables.writeProof k xs, byte < 256 := by
  induction xs using List.reverseRecOn with
  | nil =>
    intro byte member
    simp only [Tables.writeProof, List.zipIdx_nil, List.foldl_nil] at member
    rw [List.eq_of_mem_replicate member]
    decide
  | append_singleton xs x ih =>
    rw [writeProof_append_singleton]
    exact writeX_lt ih x xs.length

/-- The invariant of the loop of `find_proof_internal` over the `x`s: bit `i`
of the proof is bit `K - 1 - i % K` of the `x` at `i / K` while `i` is in the
fields written so far, and zero after. -/
theorem bitOf_writeProof (small : k ≤ 25) (positive : 0 < k) {xs : List ℕ} (few : xs.length ≤ 64)
    (fit : ∀ x ∈ xs, x < 2 ^ k) (i : ℕ) :
    bitOf (Tables.writeProof k xs) i =
      (decide (i < k * xs.length) && (xs.getD (i / k) 0).testBit (k - 1 - i % k)) := by
  induction xs using List.reverseRecOn generalizing i with
  | nil => simp [Tables.writeProof, bitOf]
  | append_singleton xs x ih =>
    rw [List.length_append, List.length_singleton] at few
    have grow : k * (xs.length + 1) = k * xs.length + k := Nat.mul_add_one k xs.length
    have room : k * (xs.length + 1) ≤ k * 64 := Nat.mul_le_mul_left k few
    rw [writeProof_append_singleton,
      bitOf_writeX _ xs.length small (fit x (by simp)) (by rw [length_writeProof]; omega),
      ih (by omega) (fun y member => fit y (by simp [member])) i, List.length_append,
      List.length_singleton]
    by_cases earlier : i < k * xs.length
    · -- a bit of an earlier `x`
      rw [List.getD_append _ _ _ _ (Nat.div_lt_of_lt_mul earlier)]
      simp [earlier, show i < k * (xs.length + 1) by omega, show ¬ k * xs.length ≤ i by omega]
    · by_cases field : i < k * xs.length + k
      · -- a bit of the new `x`
        obtain ⟨r, rfl⟩ := Nat.exists_eq_add_of_le (not_lt.mp earlier)
        have rLt : r < k := by omega
        have quotient : (k * xs.length + r) / k = xs.length := by
          rw [Nat.mul_add_div positive, Nat.div_eq_of_lt rLt, Nat.add_zero]
        have remainder : (k * xs.length + r) % k = r := by
          rw [Nat.mul_add_mod, Nat.mod_eq_of_lt rLt]
        rw [quotient, remainder, List.getD_append_right _ _ _ _ le_rfl, Nat.sub_self,
          List.getD_cons_zero, show k * xs.length + k - 1 - (k * xs.length + r) = k - 1 - r by omega]
        simp [earlier, field, show k * xs.length + r < k * (xs.length + 1) by omega]
      · -- past the last field
        simp [earlier, field, show ¬ i < k * (xs.length + 1) by omega]

end Write

section Read

/-- The 64-bit word `verify_only` reads a field from: the copied bytes,
padded with zeros to eight. -/
theorem testBit_fromBeBytes_padded {bytes : List ℕ} (bytesLt : ∀ byte ∈ bytes, byte < 256)
    (short : bytes.length ≤ 8) (j : ℕ) :
    (fromBeBytes (bytes ++ List.replicate (8 - bytes.length) 0)).testBit j =
      (decide (j < 64) && bitOf bytes (63 - j)) := by
  have padded : ∀ byte ∈ bytes ++ List.replicate (8 - bytes.length) 0, byte < 256 := by
    intro byte member
    rcases List.mem_append.mp member with early | zero
    · exact bytesLt byte early
    · rw [List.eq_of_mem_replicate zero]
      decide
  rw [fromBeBytes, testBit_foldl_bytes padded, bitOf_append_replicate_zero, List.length_append,
    List.length_replicate, show bytes.length + (8 - bytes.length) = 8 by omega]

/-- The `x` `verify_only` reads at an offset has the bits of the field there,
most significant first; the bits past the end of the proof read as zero. -/
theorem testBit_proofX (small : k ≤ 25) {proof : List ℕ} (bytesLt : ∀ byte ∈ proof, byte < 256)
    (offset m : ℕ) :
    (proofX k proof offset).testBit m = (decide (m < k) && bitOf proof (k * offset + k - 1 - m)) := by
  simp only [proofX]
  generalize k * offset = off
  have copiedLt : ∀ byte ∈ (proof.drop (off / 8)).take ((off % 8 + k + 7) / 8), byte < 256 :=
    fun byte member => bytesLt byte (List.mem_of_mem_drop (List.mem_of_mem_take member))
  have short : ((proof.drop (off / 8)).take ((off % 8 + k + 7) / 8)).length ≤ 8 := by
    rw [List.length_take]
    omega
  rw [Nat.testBit_land, Nat.testBit_mod_two_pow, Nat.testBit_div_two_pow,
    testBit_fromBeBytes_padded copiedLt short, Nat.testBit_div_two_pow, Nat.testBit_two_pow_sub_one,
    bitOf_take, bitOf_drop]
  by_cases inField : m < k
  · rw [decide_eq_true (show m < 32 by omega), decide_eq_true (show m + (64 - (k + off % 8)) < 64 by omega),
      decide_eq_true (show (63 - (m + (64 - (k + off % 8)))) / 8 < (off % 8 + k + 7) / 8 by omega),
      decide_eq_true (show m + (32 - k) < 32 by omega), decide_eq_true inField,
      show 8 * (off / 8) + (63 - (m + (64 - (k + off % 8)))) = off + k - 1 - m by omega]
    simp
  · rw [decide_eq_false inField, decide_eq_false (show ¬ m + (32 - k) < 32 by omega), Bool.and_false,
      Bool.false_and]

/-- Reading back a proof written from 64 `x`s of `K` bits gives the `x`s. -/
theorem proofX_writeProof (small : k ≤ 25) (positive : 0 < k) {xs : List ℕ} (length : xs.length = 64)
    (fit : ∀ x ∈ xs, x < 2 ^ k) {offset : ℕ} (within : offset < 64) :
    proofX k (Tables.writeProof k xs) offset = xs.getD offset 0 := by
  have grow : k * (offset + 1) = k * offset + k := Nat.mul_add_one k offset
  have room : k * (offset + 1) ≤ k * 64 := Nat.mul_le_mul_left k within
  apply Nat.eq_of_testBit_eq
  intro m
  rw [testBit_proofX small (writeProof_lt xs),
    bitOf_writeProof small positive (by omega) fit, length]
  by_cases inField : m < k
  · -- bit `m` of the `x` at `offset`, counted from the end of its field
    have index : k * offset + k - 1 - m = k * offset + (k - 1 - m) := by omega
    have quotient : (k * offset + (k - 1 - m)) / k = offset := by
      rw [Nat.mul_add_div positive, Nat.div_eq_of_lt (by omega), Nat.add_zero]
    have remainder : (k * offset + (k - 1 - m)) % k = k - 1 - m := by
      rw [Nat.mul_add_mod, Nat.mod_eq_of_lt (by omega)]
    rw [index, quotient, remainder, show k - 1 - (k - 1 - m) = m by omega]
    simp [inField, show k * offset + (k - 1 - m) < k * 64 by omega]
  · -- the `x` has no bits from `K` on
    have member : xs.getD offset 0 ∈ xs := by
      rw [List.getD_eq_getElem _ _ (by omega)]
      exact List.getElem_mem _
    have high : (xs.getD offset 0).testBit m = false :=
      Nat.testBit_lt_two_pow (lt_of_lt_of_le (fit _ member) (Nat.pow_le_pow_right two_pos (not_lt.mp inField)))
    rw [decide_eq_false inField, Bool.false_and, high]

/-- The verifier's leaves of a written proof are the prover's. -/
theorem proofLeaves_writeProof (small : k ≤ 25) (positive : 0 < k) {xs : List ℕ} (length : xs.length = 64)
    (fit : ∀ x ∈ xs, x < 2 ^ k) :
    proofLeaves hashes k (Tables.writeProof k xs) = leaves hashes k xs := by
  have indexed : xs = (List.range 64).map fun offset => xs.getD offset 0 := by
    apply List.ext_getElem (by simp [length])
    intro n within _
    simp only [List.getElem_map, List.getElem_range, List.getD_eq_getElem _ _ within]
  unfold proofLeaves leaves
  conv_rhs => rw [indexed]
  rw [List.map_map]
  apply List.map_congr_left
  intro offset member
  rw [Function.comp_apply, proofX_writeProof small positive length fit (List.mem_range.mp member)]

end Read

/-- Every proof `find_proof` gives for a challenge is accepted by
`verify_only` for the same challenge: the tree under each value of table `7`
it takes matches at every level, the packing gives the verifier back its
`x`s, and the value's first `K` bits are the challenge's. -/
theorem find_proof_proofs_verify (small : k ≤ 25) (positive : 0 < k) (firstChallengeBytes : List ℕ) :
    ∀ proof ∈ (Tables.create hashes k).findProof k firstChallengeBytes,
      ∃ proofOfSpace, proof = some proofOfSpace ∧
        verifyOnly hashes k firstChallengeBytes proofOfSpace = true := by
  intro proof member
  obtain ⟨xs, rfl, length, fit, matched, y, metadata, root, firstBits⟩ :=
    find_proof_trees_match small firstChallengeBytes proof member
  refine ⟨Tables.writeProof k xs, rfl, ?_⟩
  have checked : (checkLevels hashes [2, 3, 4, 5, 6, 7] (leaves hashes k xs)).head? = some (y, metadata) :=
    (head_checkLevels_iff _ _ _).mpr ⟨matched, root⟩
  rw [verifyOnly_eq_firstKBitsMatch, proofLeaves_writeProof small positive length fit]
  simp only [firstKBitsMatch, checked, firstBits, beq_self_eq_true]

theorem find_proof_proofs_verify_k_twenty :
    20 ≤ 25 ∧ 0 < 20 ∧
      ∀ proof ∈ (Tables.create zeroHashes 20).findProof 20 [0, 0, 0, 0],
        ∃ proofOfSpace, proof = some proofOfSpace ∧
          verifyOnly zeroHashes 20 [0, 0, 0, 0] proofOfSpace = true :=
  ⟨by decide, by decide, find_proof_proofs_verify (by decide) (by decide) [0, 0, 0, 0]⟩

end Subspace.ProofOfSpace
