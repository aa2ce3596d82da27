import Mathlib

/-!
# Runs, sorted filters and bounded buffers

Three facts about lists that an index over a sorted array and a buffer with a
capacity rest on.

1. `Consecutive`: equal elements stand next to each other, so an element met
   again follows one equal to it. Sorted lists have it
   (`consecutive_of_pairwise`), and it passes to prefixes
   (`Consecutive.of_append_singleton`).
2. In a list sorted by a key, filtering by each target of a strictly
   increasing list in turn gives the elements whose key is a target, in the
   list's order (`flatMap_filter_eq_filter_mem`).
   Sorting commutes with a map that keeps the order of the list's elements
   (`mergeSort_map_of_agree`).
3. `appendCapped`: what a loop appends to a buffer of capacity `cap` until the
   buffer is full. Two such appends are one append of both lists
   (`appendCapped_append`).
-/

namespace Subspace.Lib

variable {α β : Type*}

section Runs

/-- Equal elements are consecutive: an element that occurred before follows
one equal to it. -/
def Consecutive (l : List α) : Prop :=
  ∀ pre x post, l = pre ++ x :: post → x ∈ pre → pre.getLast? = some x

theorem consecutive_nil : Consecutive ([] : List α) := by
  intro pre x post split
  simp at split

theorem Consecutive.of_append_singleton {l : List α} {x : α} (runs : Consecutive (l ++ [x])) :
    Consecutive l := by
  intro pre y post split seen
  exact runs pre y (post ++ [x]) (by simp [split]) seen

/-- An element added again continues the run at the end. -/
theorem Consecutive.getLast?_eq {l : List α} {x : α} (runs : Consecutive (l ++ [x]))
    (seen : x ∈ l) : l.getLast? = some x :=
  runs l x [] rfl seen

theorem consecutive_of_pairwise [PartialOrder α] {l : List α} (sorted : l.Pairwise (· ≤ ·)) :
    Consecutive l := by
  intro pre x post split seen
  subst split
  obtain ⟨init, last, rfl⟩ : ∃ init last, pre = init ++ [last] := by
    rcases List.eq_nil_or_concat' pre with empty | split
    · simp [empty] at seen
    · exact split
  -- `last` lies between the earlier `x` and the one after it
  have below : last ≤ x :=
    (List.pairwise_append.mp sorted).2.2 last (by simp) x List.mem_cons_self
  have above : x ≤ last := by
    have sortedPre := (List.pairwise_append.mp sorted).1
    rcases List.mem_append.mp seen with earlier | isLast
    · exact (List.pairwise_append.mp sortedPre).2.2 x earlier last (by simp)
    · rw [List.mem_singleton.mp isLast]
  simp [le_antisymm below above]

end Runs

section SortedFilter

variable [LinearOrder β] (key : α → β)

/-- In a list sorted by `key`, when every element `p` picks has a smaller key
than every element `q` picks, picking by either is picking by `p`, then by
`q`. -/
theorem filter_or_eq_append_of_sorted {l : List α} (sorted : l.Pairwise (key · ≤ key ·))
    (p q : α → Bool) (before : ∀ a b, p a → q b → key a < key b) :
    l.filter (fun a => p a || q a) = l.filter p ++ l.filter q := by
  induction l with
  | nil => rfl
  | cons a l ih =>
    obtain ⟨later, sortedTail⟩ := List.pairwise_cons.mp sorted
    by_cases pa : p a
    · have notQ : q a = false := by
        cases qa : q a
        · rfl
        · exact absurd (before a a pa qa) (lt_irrefl _)
      simp [pa, notQ, ih sortedTail]
    · by_cases qa : q a
      · -- nothing after `a` is picked by `p`: its key would be below `a`'s
        have none : l.filter p = [] := List.filter_eq_nil_iff.mpr fun b member pb =>
          absurd (later b member) (not_le.mpr (before b a pb qa))
        simp [pa, qa, ih sortedTail, none]
      · simp [pa, qa, ih sortedTail]

/-- Filtering a list sorted by `key` by each of a strictly increasing list of
targets in turn gives the elements whose key is a target, in order. -/
theorem flatMap_filter_eq_filter_mem {l : List α} (sorted : l.Pairwise (key · ≤ key ·))
    {targets : List β} (increasing : targets.Pairwise (· < ·)) :
    targets.flatMap (fun t => l.filter (fun a => key a = t)) =
      l.filter (fun a => key a ∈ targets) := by
  induction targets with
  | nil => simp
  | cons t targets ih =>
    obtain ⟨larger, increasingTail⟩ := List.pairwise_cons.mp increasing
    have split := filter_or_eq_append_of_sorted key sorted (fun a => key a = t)
      (fun a => key a ∈ targets) (by
        intro a b hit later
        simp only [decide_eq_true_eq] at hit later
        exact hit ▸ larger (key b) later)
    rw [List.flatMap_cons, ih increasingTail, ← split]
    simp

end SortedFilter

section MergeSort

/-- Sorting commutes with a map that compares the elements of the list as
they compare, when the order on the images is total and antisymmetric: both
sides are sorted permutations of the mapped list. -/
theorem mergeSort_map_of_agree (le : α → α → Bool) (le' : β → β → Bool) (f : α → β) {l : List α}
    (trans : ∀ a b c, le a b → le b c → le a c) (total : ∀ a b, le a b || le b a)
    (trans' : ∀ a b c, le' a b → le' b c → le' a c) (total' : ∀ a b, le' a b || le' b a)
    (antisymm' : ∀ a b, le' a b → le' b a → a = b)
    (agree : ∀ a ∈ l, ∀ b ∈ l, le' (f a) (f b) = le a b) :
    (l.map f).mergeSort le' = (l.mergeSort le).map f := by
  have mappedSorted : ((l.mergeSort le).map f).Pairwise fun a b => le' a b := by
    refine List.pairwise_map.mpr ((List.pairwise_mergeSort trans total l).imp_of_mem ?_)
    intro a b memA memB before
    rw [agree a (List.mem_mergeSort.mp memA) b (List.mem_mergeSort.mp memB)]
    exact before
  have permuted : ((l.map f).mergeSort le').Perm ((l.mergeSort le).map f) :=
    (List.mergeSort_perm _ le').trans ((List.mergeSort_perm l le).map f).symm
  exact permuted.eq_of_pairwise (fun a b _ _ => antisymm' a b)
    (List.pairwise_mergeSort trans' total' _) mappedSorted

end MergeSort

section Capped

/-- A buffer of capacity `cap` after `xs` is appended element by element,
stopping when it is full. -/
def appendCapped (cap : ℕ) (buffer xs : List α) : List α :=
  buffer ++ xs.take (cap - buffer.length)

@[simp]
theorem appendCapped_nil (cap : ℕ) (buffer : List α) : appendCapped cap buffer [] = buffer := by
  simp [appendCapped]

theorem appendCapped_of_le {cap : ℕ} {buffer : List α} (full : cap ≤ buffer.length) (xs : List α) :
    appendCapped cap buffer xs = buffer := by
  simp [appendCapped, Nat.sub_eq_zero_of_le full]

theorem appendCapped_cons {cap : ℕ} {buffer : List α} (room : buffer.length < cap) (x : α)
    (xs : List α) : appendCapped cap buffer (x :: xs) = appendCapped cap (buffer ++ [x]) xs := by
  obtain ⟨n, hn⟩ : ∃ n, cap - buffer.length = n + 1 := ⟨cap - buffer.length - 1, by omega⟩
  have rest : cap - (buffer.length + 1) = n := by omega
  simp [appendCapped, hn, rest]

theorem length_appendCapped (cap : ℕ) (buffer xs : List α) :
    (appendCapped cap buffer xs).length = buffer.length + min (cap - buffer.length) xs.length := by
  simp [appendCapped]

/-- Two capped appends are one capped append of both lists. -/
theorem appendCapped_append (cap : ℕ) (buffer xs ys : List α) :
    appendCapped cap (appendCapped cap buffer xs) ys = appendCapped cap buffer (xs ++ ys) := by
  unfold appendCapped
  rw [List.take_append, List.append_assoc, List.length_append, List.length_take]
  congr 3
  omega

end Capped

end Subspace.Lib
