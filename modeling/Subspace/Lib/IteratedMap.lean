import Mathlib

/-!
# Iterated maps, checked from both ends

The chain of `f` from `x` is `List.iterate f (f x) count`: `f x, f (f x), …`, each element `f`
of the one before it. A chain of `e^[k + k]` can be checked without computing it in order: when
`d` undoes `e`, `y = e^[k + k] x` exactly when `e^[k] x = d^[k] y`, so every link of the chain
can be checked at once, going forward from its start and backward from its end, half way each.
-/

namespace IteratedMap

variable {α : Type}

/-- Iterating `List.map f` maps the iterate of `f`. -/
theorem map_iterate (f : α → α) (n : ℕ) (xs : List α) : (List.map f)^[n] xs = xs.map f^[n] := by
  induction n generalizing xs with
  | zero => simp
  | succ n ih =>
    rw [Function.iterate_succ_apply, ih, List.map_map, ← Function.iterate_succ]

section Inverse

variable {e d : α → α} (left : Function.LeftInverse d e) (right : Function.RightInverse d e)
include left right

/-- Meet in the middle: `k` steps forward from `x` meet `k` steps back from `y` exactly when `y`
is `k + k` steps forward from `x`. -/
theorem iterate_eq_iterate_iff (k : ℕ) (x y : α) : e^[k] x = d^[k] y ↔ e^[k + k] x = y := by
  rw [Function.iterate_add_apply]
  constructor
  · intro met
    rw [met]
    exact right.iterate k y
  · intro reached
    rw [← reached]
    exact (left.iterate k (e^[k] x)).symm

/-- `iterate_eq_iterate_iff` for every position of two lists at once. -/
theorem map_iterate_eq_map_iterate_iff (k : ℕ) :
    ∀ xs ys : List α, xs.map e^[k] = ys.map d^[k] ↔ xs.map e^[k + k] = ys
  | [], [] => by simp
  | [], _ :: _ => by simp
  | _ :: _, [] => by simp
  | x :: xs, y :: ys => by
    simp only [List.map_cons, List.cons.injEq, iterate_eq_iterate_iff left right k x y,
      map_iterate_eq_map_iterate_iff k xs ys]

end Inverse

/-- Mapping `f` over the list shifted by one start `x` gives the list back exactly when each
element is `f` of the one before it. -/
theorem map_take_cons_eq_iff (f : α → α) (x : α) (l : List α) :
    ((x :: l).take l.length).map f = l ↔ ∀ i < l.length, l[i]? = (x :: l)[i]?.map f := by
  rw [List.ext_getElem?_iff]
  constructor
  · intro mapped i within
    rw [← mapped i, List.getElem?_map, List.getElem?_take_of_lt within]
  · intro linked i
    rw [List.getElem?_map, List.getElem?_take]
    by_cases within : i < l.length
    · rw [if_pos within, linked i within]
    · rw [if_neg within, Option.map_none, List.getElem?_eq_none (Nat.le_of_not_lt within)]

/-- A list is the chain of `f` from `x` exactly when it has the chain's length and each of its
elements is `f` of the one before it, `x` before the first. -/
theorem iterate_eq_iff (f : α → α) (x : α) {count : ℕ} {l : List α} (length : l.length = count) :
    List.iterate f (f x) count = l ↔ ∀ i < count, l[i]? = (x :: l)[i]?.map f := by
  induction l generalizing x count with
  | nil =>
    subst length
    simp
  | cons a l ih =>
    subst length
    -- the chain's head is `f x`, and its tail is the chain from its head
    simp only [List.length_cons, List.iterate, List.cons.injEq]
    constructor
    · rintro ⟨rfl, rest⟩ i within
      cases i with
      | zero => rfl
      | succ j => exact (ih (f x) rfl).mp rest j (by simpa using within)
    · intro linked
      have head : a = f x := by simpa using linked 0 (by simp)
      subst head
      refine ⟨rfl, (ih (f x) rfl).mpr fun j within => ?_⟩
      simpa using linked (j + 1) (by simpa using within)

end IteratedMap
