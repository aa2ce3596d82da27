import Mathlib.Data.Nat.ModEq
import Mathlib.Tactic.Linarith
import Mathlib.Algebra.Order.BigOperators.Group.List

/-!
# Fixed-point fractions in parts of a fixed accuracy

A `PerThing acc` is a fraction `parts / acc` with `parts ≤ acc`, the shape of
the `Percent`, `Permill` and `Perquintill` types of a runtime arithmetic
library. The operations are the ones that library documents:

* `fromRational p q` is `p / q` rounded down, saturating to one when
  `q < p` or `q = 0`;
* `mulFloor x b` is `b · x` rounded down;
* `plusEpsilon x` adds one part, saturating at one;
* `saturatingReciprocalMulFloor x b bound` is `b / x` rounded down,
  saturating at `bound` (the largest value of the integer type).

The lemmas are the bounds the rounding gives, stated over `ℕ`.
-/

/-- A fraction `parts / acc` that cannot exceed one. -/
structure PerThing (acc : ℕ) where
  parts : ℕ
  le_acc : parts ≤ acc
deriving DecidableEq

namespace PerThing

variable {acc : ℕ}

instance : Repr (PerThing acc) := ⟨fun x _ => repr x.parts⟩

/-- The fraction one. -/
def one : PerThing acc := ⟨acc, le_refl acc⟩

/-- `parts / acc`, with `parts` cut down to `acc`. -/
def fromParts (parts : ℕ) : PerThing acc := ⟨min parts acc, min_le_right _ _⟩

theorem div_le_acc {p q : ℕ} (hpq : p ≤ q) : acc * p / q ≤ acc :=
  Nat.div_le_of_le_mul (by rw [Nat.mul_comm q acc]; exact Nat.mul_le_mul_left acc hpq)

/-- `p / q` rounded down; one when the fraction is not below one or `q = 0`. -/
def fromRational (p q : ℕ) : PerThing acc :=
  if h : q = 0 ∨ q < p then one
  else ⟨acc * p / q, div_le_acc (by omega)⟩

/-- `b · x` rounded down. -/
def mulFloor (x : PerThing acc) (b : ℕ) : ℕ := b * x.parts / acc

/-- One part more, saturating at one. -/
def plusEpsilon (x : PerThing acc) : PerThing acc := fromParts (x.parts + 1)

/-- `b / x` rounded down, saturating at `bound`; `bound` itself when `x = 0`. -/
def saturatingReciprocalMulFloor (x : PerThing acc) (b bound : ℕ) : ℕ :=
  if x.parts = 0 then bound else min (b * acc / x.parts) bound

@[simp] theorem one_parts : (one : PerThing acc).parts = acc := rfl

@[simp] theorem fromParts_parts (parts : ℕ) :
    (fromParts parts : PerThing acc).parts = min parts acc := rfl

theorem fromRational_of_le {p q : ℕ} (hq : 0 < q) (hpq : p ≤ q) :
    (fromRational p q : PerThing acc).parts = acc * p / q := by
  have notSaturated : ¬(q = 0 ∨ q < p) := by omega
  simp [fromRational, notSaturated]

theorem fromRational_self {p : ℕ} (hp : 0 < p) : (fromRational p p : PerThing acc) = one := by
  have parts : (fromRational p p : PerThing acc).parts = acc * p / p :=
    fromRational_of_le hp (le_refl p)
  rw [Nat.mul_div_cancel _ hp] at parts
  cases h : (fromRational p p : PerThing acc)
  simp_all [one]

theorem mulFloor_le_self (x : PerThing acc) (b : ℕ) : mulFloor x b ≤ b := by
  unfold mulFloor
  rcases Nat.eq_zero_or_pos acc with zero | pos
  · simp [zero]
  · exact Nat.div_le_of_le_mul (Nat.mul_le_mul_left b x.le_acc |>.trans (by rw [Nat.mul_comm]))

theorem mulFloor_one (hacc : 0 < acc) (b : ℕ) : mulFloor (one : PerThing acc) b = b := by
  simp [mulFloor, Nat.mul_div_cancel _ hacc]

theorem mulFloor_mono (x : PerThing acc) {a b : ℕ} (hab : a ≤ b) : mulFloor x a ≤ mulFloor x b :=
  Nat.div_le_div_right (Nat.mul_le_mul_right _ hab)

/-- Flooring each part separately never gives more than flooring the sum. -/
theorem mulFloor_add_le (x : PerThing acc) (a b : ℕ) :
    mulFloor x a + mulFloor x b ≤ mulFloor x (a + b) := by
  unfold mulFloor
  rw [Nat.add_mul]
  exact Nat.div_add_div_le_add_div

/-- A fraction strictly below one takes something off every positive amount. -/
theorem mulFloor_lt_self (x : PerThing acc) (below : x.parts < acc) {b : ℕ} (hb : 0 < b) :
    mulFloor x b < b := by
  unfold mulFloor
  have hacc : 0 < acc := by omega
  exact (Nat.div_lt_iff_lt_mul hacc).mpr (Nat.mul_lt_mul_of_pos_left below hb)

/-- The reciprocal of a fraction, applied to `b`, is at least `b`. -/
theorem le_saturatingReciprocalMulFloor (x : PerThing acc) {b bound : ℕ} (hb : b ≤ bound) :
    b ≤ saturatingReciprocalMulFloor x b bound := by
  unfold saturatingReciprocalMulFloor
  split
  · exact hb
  · rename_i nonzero
    refine le_min ?_ hb
    exact (Nat.le_div_iff_mul_le (by omega)).mpr (Nat.mul_le_mul_left b x.le_acc)

theorem saturatingReciprocalMulFloor_one (hacc : 0 < acc) {b bound : ℕ} (hb : b ≤ bound) :
    saturatingReciprocalMulFloor (one : PerThing acc) b bound = b := by
  have nonzero : acc ≠ 0 := by omega
  simp [saturatingReciprocalMulFloor, nonzero, Nat.mul_div_cancel _ hacc, hb]

theorem plusEpsilon_one : plusEpsilon (one : PerThing acc) = one := by
  simp [plusEpsilon, fromParts, one]

/-! ### The direction of each rounding, cross-multiplied -/

/-- `fromRational p q` does not exceed `p / q`. -/
theorem fromRational_parts_mul_le {p q : ℕ} (hq : 0 < q) (hpq : p ≤ q) :
    (fromRational p q : PerThing acc).parts * q ≤ acc * p := by
  rw [fromRational_of_le hq hpq]
  exact Nat.div_mul_le_self _ _

/-- One part more than `fromRational p q` is at least `p / q`: the floor of
`fromRational` is undone by `plusEpsilon`. -/
theorem le_plusEpsilon_fromRational_mul {p q : ℕ} (hq : 0 < q) (hpq : p ≤ q) :
    acc * p ≤ (fromRational p q : PerThing acc).plusEpsilon.parts * q := by
  have floor : acc * p < (acc * p / q + 1) * q := by
    rw [Nat.add_mul, Nat.one_mul]
    exact Nat.lt_div_mul_add hq
  have whole : acc * p ≤ acc * q := Nat.mul_le_mul_left acc hpq
  simp only [plusEpsilon, fromParts_parts, fromRational_of_le hq hpq]
  rcases min_cases (acc * p / q + 1) acc with ⟨picked, -⟩ | ⟨picked, -⟩ <;> rw [picked]
  · exact floor.le
  · exact whole

theorem parts_le_plusEpsilon (x : PerThing acc) : x.parts ≤ x.plusEpsilon.parts := by
  simp only [plusEpsilon, fromParts_parts]
  exact le_min (Nat.le_succ _) x.le_acc

theorem plusEpsilon_parts_pos (hacc : 0 < acc) (x : PerThing acc) : 0 < x.plusEpsilon.parts := by
  simp only [plusEpsilon, fromParts_parts]
  omega

/-- `mulFloor x b` does not exceed `b · x`. -/
theorem mulFloor_mul_le (x : PerThing acc) (b : ℕ) : mulFloor x b * acc ≤ b * x.parts :=
  Nat.div_mul_le_self _ _

/-- `saturatingReciprocalMulFloor x b bound` does not exceed `b / x`. -/
theorem saturatingReciprocalMulFloor_mul_le (x : PerThing acc) (b bound : ℕ)
    (pos : 0 < x.parts) : saturatingReciprocalMulFloor x b bound * x.parts ≤ b * acc := by
  unfold saturatingReciprocalMulFloor
  rw [if_neg (Nat.pos_iff_ne_zero.mp pos)]
  calc min (b * acc / x.parts) bound * x.parts ≤ b * acc / x.parts * x.parts :=
        Nat.mul_le_mul_right _ (min_le_left _ _)
    _ ≤ b * acc := Nat.div_mul_le_self _ _

theorem saturatingReciprocalMulFloor_zero (x : PerThing acc) (bound : ℕ) (pos : 0 < x.parts) :
    saturatingReciprocalMulFloor x 0 bound = 0 := by
  simp [saturatingReciprocalMulFloor, Nat.pos_iff_ne_zero.mp pos]

/-! ### Sums of floors -/

theorem sum_mulFloor_mul_le (xs : List (PerThing acc)) (b : ℕ) :
    (xs.map fun x => mulFloor x b).sum * acc ≤ b * (xs.map (·.parts)).sum := by
  induction xs with
  | nil => simp
  | cons x rest ih =>
    simp only [List.map_cons, List.sum_cons, Nat.add_mul, Nat.mul_add]
    exact Nat.add_le_add (mulFloor_mul_le x b) ih

/-- Flooring each share of `b` separately hands out no more than `b` when the
shares add up to at most one. -/
theorem sum_mulFloor_le (xs : List (PerThing acc)) (b : ℕ) (hacc : 0 < acc)
    (atMostOne : (xs.map (·.parts)).sum ≤ acc) : (xs.map fun x => mulFloor x b).sum ≤ b := by
  have scaled : (xs.map fun x => mulFloor x b).sum * acc ≤ b * acc :=
    (sum_mulFloor_mul_le xs b).trans (Nat.mul_le_mul_left b atMostOne)
  exact Nat.le_of_mul_le_mul_right scaled hacc

theorem sum_fromRational_parts_mul_le (ws : List ℕ) {total : ℕ} (hq : 0 < total)
    (each : ∀ w ∈ ws, w ≤ total) :
    (ws.map fun w => (fromRational w total : PerThing acc).parts).sum * total ≤ acc * ws.sum := by
  induction ws with
  | nil => simp
  | cons w rest ih =>
    simp only [List.map_cons, List.sum_cons, Nat.add_mul, Nat.mul_add]
    exact Nat.add_le_add (fromRational_parts_mul_le hq (each w List.mem_cons_self))
      (ih fun v member => each v (List.mem_cons_of_mem w member))

/-- The floored fractions `w / total` of weights adding up to at most
`total` add up to at most one. -/
theorem sum_fromRational_parts_le (ws : List ℕ) {total : ℕ} (hq : 0 < total)
    (summed : ws.sum ≤ total) :
    (ws.map fun w => (fromRational w total : PerThing acc).parts).sum ≤ acc := by
  have each : ∀ w ∈ ws, w ≤ total := fun w member => (List.le_sum_of_mem member).trans summed
  have scaled := (sum_fromRational_parts_mul_le ws hq each).trans
    (Nat.mul_le_mul_left acc summed)
  exact Nat.le_of_mul_le_mul_right scaled hq

/-- `n` shares of `1 / n` of `b`, each rounded down, are at most `b`. -/
theorem mul_mulFloor_fromRational_one_le (hacc : 0 < acc) {n : ℕ} (positive : 0 < n) (b : ℕ) :
    n * mulFloor (fromRational 1 n : PerThing acc) b ≤ b := by
  have floor := mulFloor_mul_le (fromRational 1 n : PerThing acc) b
  have price : (fromRational 1 n : PerThing acc).parts * n ≤ acc * 1 :=
    fromRational_parts_mul_le positive positive
  have scaled : n * mulFloor (fromRational 1 n : PerThing acc) b * acc ≤ b * acc :=
    calc n * mulFloor (fromRational 1 n : PerThing acc) b * acc
        = n * (mulFloor (fromRational 1 n : PerThing acc) b * acc) := Nat.mul_assoc _ _ _
      _ ≤ n * (b * (fromRational 1 n : PerThing acc).parts) := Nat.mul_le_mul_left n floor
      _ = b * ((fromRational 1 n : PerThing acc).parts * n) := by ac_rfl
      _ ≤ b * (acc * 1) := Nat.mul_le_mul_left b price
      _ = b * acc := by rw [Nat.mul_one]
  exact Nat.le_of_mul_le_mul_right scaled hacc

end PerThing
