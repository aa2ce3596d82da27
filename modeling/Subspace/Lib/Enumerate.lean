import Mathlib

/-!
# Positions in enumerated lists

A loop that walks buckets one after another and, inside each bucket, the items that belong to
it, numbers every item by its position in the walk. That position is the sizes of the buckets
before it plus the position inside the bucket (`getElem?_flatMap_range_pair`). Inside a bucket
that keeps the indices of the elements a partial function accepts, the position of an index is
the number of accepted elements before it (`getElem?_filterMap_zipIdx`), and each index occurs
at most once (`countP_filterMap_zipIdx_index`).

A count of the first `k` elements of a kind in `0, 1, …, N - 1`, those with fewer than `k` of
the kind before them, is `min k` of the count of the kind (`countP_range_first`). Bits packed
into words of `w` bits are counted word by word (`countP_range_mul_getD`).
-/

namespace Enumerate

open List

variable {α β : Type}

/-- The sum of the first `s` values of `h` over `0, 1, …`. -/
theorem sum_map_range_succ (h : ℕ → ℕ) (s : ℕ) :
    ((range (s + 1)).map h).sum = ((range s).map h).sum + h s := by
  simp [range_succ]

theorem sum_map_range_le (h : ℕ → ℕ) {s N : ℕ} (le : s ≤ N) :
    ((range s).map h).sum ≤ ((range N).map h).sum :=
  ((range_sublist.2 le).map h).sum_le_sum (fun _ _ => Nat.zero_le _)

/-- A sum of ones and zeros counts the ones. -/
theorem sum_map_ite_eq_countP (q : α → Bool) :
    ∀ l : List α, (l.map fun a => if q a then 1 else 0).sum = l.countP q
  | [] => rfl
  | a :: l => by
    rw [map_cons, sum_cons, sum_map_ite_eq_countP q l, countP_cons]
    omega

/-- Counting the related pairs of rows and columns row by row, or column by column. -/
theorem sum_map_countP_comm (R : α → β → Bool) (rows : List α) :
    ∀ columns : List β, (rows.map fun a => columns.countP (R a)).sum =
      (columns.map fun b => rows.countP fun a => R a b).sum
  | [] => by simp
  | b :: columns => by
    simp only [countP_cons, sum_map_add, map_cons, sum_cons,
      sum_map_countP_comm R rows columns, sum_map_ite_eq_countP]
    omega

/-- The elements of `p`, or else of `q`, are those of `p` and those of `q` outside `p`. -/
theorem countP_or_not_and (p q : α → Bool) :
    ∀ l : List α, l.countP (fun a => p a || (!p a && q a)) =
      l.countP p + l.countP (fun a => !p a && q a)
  | [] => rfl
  | a :: l => by
    simp only [countP_cons, countP_or_not_and p q l]
    cases p a <;> cases q a <;> simp <;> omega

/-- Taking the elements of `0, 1, …, N - 1` that satisfy `q` while fewer than `k` of them have
been taken takes `min k` of those that satisfy it. -/
theorem countP_range_first (q : ℕ → Bool) (k : ℕ) : ∀ N,
    (range N).countP (fun s => q s && decide ((range s).countP q < k)) =
      min k ((range N).countP q)
  | 0 => by simp
  | N + 1 => by
    rw [range_succ, countP_append, countP_append, countP_range_first q k N]
    -- the last element is taken exactly when it is of the kind and fewer than `k` came before
    by_cases last : q N
    · by_cases below : (range N).countP q < k
      · simp [last, below]
        omega
      · simp [last, below]
        omega
    · simp [last]

/-- The entry at position `loc` of the walk over the buckets `0, 1, …, N - 1`, each bucket `t`
holding `g t` tagged with `t`: bucket `s` at its own position `i`, after the buckets before
it. -/
theorem getElem?_flatMap_range_pair (g : ℕ → List β) {loc s : ℕ} {x : β} : ∀ N,
    ((range N).flatMap fun t => (g t).map (Prod.mk t))[loc]? = some (s, x) ↔
      s < N ∧ ∃ i, (g s)[i]? = some x ∧ loc = ((range s).map fun t => (g t).length).sum + i
  | 0 => by simp
  | N + 1 => by
    have length : ((range N).flatMap fun t => (g t).map (Prod.mk t)).length =
        ((range N).map fun t => (g t).length).sum := by
      simp [length_flatMap]
    rw [range_succ, flatMap_append, getElem?_append, length, flatMap_singleton]
    -- a position before the last bucket is in an earlier bucket, the others in the last
    by_cases before : loc < ((range N).map fun t => (g t).length).sum
    · rw [if_pos before, getElem?_flatMap_range_pair g N]
      constructor
      · rintro ⟨lt, rest⟩
        exact ⟨by omega, rest⟩
      · rintro ⟨le, i, found, rfl⟩
        refine ⟨?_, i, found, rfl⟩
        rcases Nat.lt_succ_iff_lt_or_eq.1 le with lt | rfl
        · exact lt
        · omega
    · rw [if_neg before, getElem?_map]
      constructor
      · intro found
        simp only [Option.map_eq_some_iff, Prod.mk.injEq] at found
        obtain ⟨y, found, rfl, rfl⟩ := found
        exact ⟨Nat.lt_succ_self _, loc - ((range N).map fun t => (g t).length).sum, found,
          by omega⟩
      · rintro ⟨le, i, found, rfl⟩
        have last : s = N := by
          by_contra other
          have inside : i < (g s).length := (List.getElem?_eq_some_iff.1 found).1
          have later := sum_map_range_le (fun t => (g t).length) (show s + 1 ≤ N by omega)
          rw [sum_map_range_succ] at later
          omega
        subst last
        simp [found]

/-- The entry at position `i` of the indices, from `n` on, of the elements `f` accepts, with what
it gives: the element at that index is accepted, and `i` of the accepted elements come before
it. -/
theorem getElem?_filterMap_zipIdx_from (f : α → Option β) {b : β} :
    ∀ (l : List α) (n i j : ℕ),
    ((l.zipIdx n).filterMap fun x => (f x.1).map (Prod.mk x.2))[i]? = some (j, b) ↔
      n ≤ j ∧ ∃ a, l[j - n]? = some a ∧ f a = some b ∧
        i = (l.take (j - n)).countP fun a => (f a).isSome
  | [], _, _, _ => by simp
  | a :: l, n, i, j => by
    rw [zipIdx_cons, filterMap_cons]
    -- the head is the index `n`; the indices of the tail start at `n + 1`
    rcases Nat.lt_or_ge n j with later | first
    · obtain ⟨d, rfl⟩ : ∃ d, j = n + 1 + d := ⟨j - (n + 1), by omega⟩
      have shift : n + 1 + d - n = d + 1 := by omega
      have le : n ≤ n + 1 + d := by omega
      cases accepted : f a with
      | none =>
        simp [getElem?_filterMap_zipIdx_from f l (n + 1) i, shift, accepted, le]
      | some c =>
        cases i with
        | zero => simp [shift, accepted, show n ≠ n + 1 + d by omega]
        | succ i => simp [getElem?_filterMap_zipIdx_from f l (n + 1) i, shift, accepted, le]
    · rcases Nat.lt_or_eq_of_le first with before | rfl
      · have notAfter : ∀ i : ℕ, ((l.zipIdx (n + 1)).filterMap
            fun x => (f x.1).map (Prod.mk x.2))[i]? ≠ some (j, b) := by
          intro i found
          have := ((getElem?_filterMap_zipIdx_from f l (n + 1) i j).1 found).1
          omega
        cases accepted : f a with
        | none => simp [notAfter, show ¬n ≤ j by omega]
        | some c =>
          cases i with
          | zero => simp [show n ≠ j by omega, show ¬n ≤ j by omega]
          | succ i => simp [notAfter, show ¬n ≤ j by omega]
      · have notAfter : ∀ i : ℕ, ((l.zipIdx (j + 1)).filterMap
            fun x => (f x.1).map (Prod.mk x.2))[i]? ≠ some (j, b) := by
          intro i found
          have := ((getElem?_filterMap_zipIdx_from f l (j + 1) i j).1 found).1
          omega
        cases accepted : f a with
        | none => simp [notAfter, accepted]
        | some c =>
          cases i with
          | zero => simp [accepted, eq_comm]
          | succ i => simp [notAfter]

/-- `getElem?_filterMap_zipIdx_from` for the indices from `0`. -/
theorem getElem?_filterMap_zipIdx (f : α → Option β) (l : List α) (i j : ℕ) (b : β) :
    (l.zipIdx.filterMap fun x => (f x.1).map (Prod.mk x.2))[i]? = some (j, b) ↔
      ∃ a, l[j]? = some a ∧ f a = some b ∧ i = (l.take j).countP fun a => (f a).isSome := by
  simpa using getElem?_filterMap_zipIdx_from f l 0 i j

/-- Among the indices, from `n` on, of the elements `f` accepts, the index `j` occurs once if the
element there is accepted and not at all otherwise. -/
theorem countP_filterMap_zipIdx_index_from (f : α → Option β) (j : ℕ) :
    ∀ (l : List α) (n : ℕ),
    ((l.zipIdx n).filterMap fun x => (f x.1).map (Prod.mk x.2)).countP (fun y => y.1 = j) =
      if n ≤ j ∧ ((l[j - n]?).bind f).isSome then 1 else 0
  | [], _ => by simp
  | a :: l, n => by
    have rest := countP_filterMap_zipIdx_index_from f j l (n + 1)
    rw [zipIdx_cons, filterMap_cons]
    rcases Nat.lt_or_ge n j with later | first
    · have shift : j - n = j - (n + 1) + 1 := by omega
      cases f a <;> simp [rest, shift, show n ≠ j by omega, show n ≤ j by omega,
        show n + 1 ≤ j by omega]
    · rcases Nat.lt_or_eq_of_le first with before | rfl
      · cases f a <;> simp [rest, show ¬n ≤ j by omega, show ¬n + 1 ≤ j by omega,
          show n ≠ j by omega]
      · cases accepted : f a <;> simp [rest, accepted]

/-- `countP_filterMap_zipIdx_index_from` for the indices from `0`. -/
theorem countP_filterMap_zipIdx_index (f : α → Option β) (l : List α) (j : ℕ) :
    (l.zipIdx.filterMap fun x => (f x.1).map (Prod.mk x.2)).countP (fun y => y.1 = j) =
      if ((l[j]?).bind f).isSome then 1 else 0 := by
  simpa using countP_filterMap_zipIdx_index_from f j l 0

/-- Bits packed into words of `w` bits, bit `i` being bit `i % w` of word `i / w`: the set bits
of all words are those of each word, summed. -/
theorem countP_range_mul_getD {w : ℕ} (positive : 0 < w) (bit : α → ℕ → Bool) (d : α) :
    ∀ l : List α, (range (w * l.length)).countP (fun i => bit (l.getD (i / w) d) (i % w)) =
      (l.map fun a => (range w).countP (bit a)).sum
  | [] => by simp
  | a :: l => by
    have split : w * (a :: l).length = w + w * l.length := by
      simp [Nat.mul_succ, Nat.add_comm]
    rw [split, range_add, countP_append, countP_map, map_cons, sum_cons,
      ← countP_range_mul_getD positive bit d l]
    -- the first word holds the first `w` bits, the rest are the bits of the tail shifted by `w`
    congr 1
    · apply countP_congr
      intro i inRange
      have lt : i < w := mem_range.1 inRange
      simp [Nat.div_eq_of_lt lt, Nat.mod_eq_of_lt lt]
    · apply countP_congr
      intro i _
      have div : (w + i) / w = i / w + 1 := by
        rw [Nat.add_comm, Nat.add_div_right i positive]
      simp [div, Nat.add_mod_left]

end Enumerate
