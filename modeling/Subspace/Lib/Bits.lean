import Mathlib

/-!
# Big-endian byte strings as bit strings

A list of bytes read as one bit string, most significant bit first: bit `i`
is bit `7 - i % 8` of byte `i / 8`, and `false` past the end (`bitOf`).

1. `testBit_foldl_bytes`: the number the bytes spell big-endian,
   `bytes.foldl (· * 256 + ·) 0`, has as bit `j` from its low end the bit
   `8 · length - 1 - j` of the string.
2. Reading a bit inside and past the string (`bitOf_eq_getElem`,
   `bitOf_eq_false`); dropping, taking and padding with zero bytes act on the bits as on the
   bytes (`bitOf_drop`, `bitOf_take`, `bitOf_append_replicate_zero`).
3. `bitOf_mapIdx`: the bits of a string rewritten byte by byte.
-/

namespace Subspace.Lib

/-- Bit `i` of a big-endian byte string. -/
def bitOf (bytes : List ℕ) (i : ℕ) : Bool :=
  (bytes.getD (i / 8) 0).testBit (7 - i % 8)

theorem bitOf_eq_getElem {bytes : List ℕ} {i : ℕ} (within : i / 8 < bytes.length) :
    bitOf bytes i = bytes[i / 8].testBit (7 - i % 8) := by
  rw [bitOf, List.getD_eq_getElem _ _ within]

theorem bitOf_eq_false {bytes : List ℕ} {i : ℕ} (beyond : bytes.length ≤ i / 8) :
    bitOf bytes i = false := by
  rw [bitOf, List.getD_eq_default _ _ beyond, Nat.zero_testBit]

theorem bitOf_drop (bytes : List ℕ) (d i : ℕ) : bitOf (bytes.drop d) i = bitOf bytes (8 * d + i) := by
  unfold bitOf
  rw [List.getD_eq_getElem?_getD, List.getD_eq_getElem?_getD, List.getElem?_drop,
    show d + i / 8 = (8 * d + i) / 8 by omega, show i % 8 = (8 * d + i) % 8 by omega]

theorem bitOf_take (bytes : List ℕ) (c i : ℕ) :
    bitOf (bytes.take c) i = (decide (i / 8 < c) && bitOf bytes i) := by
  unfold bitOf
  rw [List.getD_eq_getElem?_getD, List.getD_eq_getElem?_getD, List.getElem?_take]
  by_cases within : i / 8 < c <;> simp [within]

theorem bitOf_append_replicate_zero (bytes : List ℕ) (n i : ℕ) :
    bitOf (bytes ++ List.replicate n 0) i = bitOf bytes i := by
  unfold bitOf
  rw [List.getD_eq_getElem?_getD, List.getD_eq_getElem?_getD, List.getElem?_append]
  by_cases within : i / 8 < bytes.length
  · simp [within]
  · simp only [within, if_false, List.getElem?_eq_none (not_lt.mp within), List.getElem?_replicate]
    split <;> simp

theorem bitOf_append_of_lt {bytes : List ℕ} {i : ℕ} (within : i / 8 < bytes.length) (rest : List ℕ) :
    bitOf (bytes ++ rest) i = bitOf bytes i := by
  unfold bitOf
  rw [List.getD_eq_getElem?_getD, List.getD_eq_getElem?_getD, List.getElem?_append_left within]

theorem bitOf_append_length (bytes rest : List ℕ) (i : ℕ) :
    bitOf (bytes ++ rest) (8 * bytes.length + i) = bitOf rest i := by
  have shifted := bitOf_drop (bytes ++ rest) bytes.length i
  rw [List.drop_left] at shifted
  exact shifted.symm

theorem bitOf_mapIdx (bytes : List ℕ) (f : ℕ → ℕ → ℕ) (i : ℕ) :
    bitOf (bytes.mapIdx f) i = ((bytes[i / 8]?.map (f (i / 8))).getD 0).testBit (7 - i % 8) := by
  unfold bitOf
  rw [List.getD_eq_getElem?_getD, List.getElem?_mapIdx]

/-- The number a string of bytes spells big-endian has its bits in the reverse
order of the string's. The induction adds the last byte, which becomes the
low eight bits. -/
theorem testBit_foldl_bytes {bytes : List ℕ} (bytesLt : ∀ byte ∈ bytes, byte < 256) (j : ℕ) :
    (bytes.foldl (fun acc byte => acc * 256 + byte) 0).testBit j =
      (decide (j < 8 * bytes.length) && bitOf bytes (8 * bytes.length - 1 - j)) := by
  induction bytes using List.reverseRecOn generalizing j with
  | nil => simp
  | append_singleton bytes byte ih =>
    have low : byte < 2 ^ 8 := bytesLt byte (by simp)
    have earlier := ih fun b member => bytesLt b (by simp [member])
    have lastByte : ∀ acc : ℕ, (acc * 256 + byte).testBit j =
        if j < 8 then byte.testBit j else acc.testBit (j - 8) := fun acc => by
      rw [Nat.mul_comm]
      exact Nat.testBit_two_pow_mul_add acc low j
    rw [List.foldl_append, List.foldl_cons, List.foldl_nil, lastByte, List.length_append,
      List.length_singleton]
    by_cases inLast : j < 8
    · -- bit `j` of the last byte
      rw [if_pos inLast, show 8 * (bytes.length + 1) - 1 - j = 8 * bytes.length + (7 - j) by omega,
        bitOf_append_length]
      simp [bitOf, Nat.div_eq_of_lt (show 7 - j < 8 by omega), Nat.mod_eq_of_lt (show 7 - j < 8 by omega),
        show 7 - (7 - j) = j by omega, show j < 8 * (bytes.length + 1) by omega]
    · rw [if_neg inLast, earlier]
      by_cases inString : j < 8 * (bytes.length + 1)
      · rw [bitOf_append_of_lt (by omega), show 8 * bytes.length - 1 - (j - 8) =
          8 * (bytes.length + 1) - 1 - j by omega]
        simp [inString, show j - 8 < 8 * bytes.length by omega]
      · simp [inString, show ¬ j - 8 < 8 * bytes.length by omega]

end Subspace.Lib
