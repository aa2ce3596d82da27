import Mathlib

/-!
# A list kept in rows of a fixed capacity

A list produced in pieces, each piece kept in a row of its own of `cap` slots,
row `i` starting at slot `i · cap`. The `d`-th element of the whole list is at
slot `stridedIndex cap counts d`, where `counts` are the lengths of the rows.

1. `rowSlot_stridedIndex`: reading that slot of the rows (`rowSlot`) gives the
   `d`-th element of the list, and `none` past its end;
2. `strictMono_stridedIndex`, `stridedIndex_lt`: the slots keep the order of
   the list and stay below `cap` times the number of rows;
3. `zipIdx_flatten`: numbering the elements of each row from its first slot
   gives the elements of the list with their slots.
-/

namespace Subspace.Lib

variable {α : Type*} (cap : ℕ)

/-- Slot `p` of rows of `cap` slots: slot `p % cap` of row `p / cap`, `none`
past the end of its row. -/
def rowSlot (rows : List (List α)) (p : ℕ) : Option α :=
  rows[p / cap]?.bind fun row => row[p % cap]?

/-- The slot of the `d`-th element of the list made of rows of the lengths
`counts`. Past the last row the slots continue one after the other. -/
def stridedIndex : List ℕ → ℕ → ℕ
  | [], d => d
  | count :: counts, d => if d < count then d else cap + stridedIndex counts (d - count)

variable {cap}

theorem rowSlot_nil (p : ℕ) : rowSlot cap ([] : List (List α)) p = none := rfl

theorem rowSlot_eq_none {rows : List (List α)} {p : ℕ} (beyond : rows.length ≤ p / cap) :
    rowSlot cap rows p = none := by
  rw [rowSlot, List.getElem?_eq_none beyond, Option.bind_none]

theorem rowSlot_map {β : Type*} (f : α → β) (rows : List (List α)) (p : ℕ) :
    rowSlot cap (rows.map (List.map f)) p = (rowSlot cap rows p).map f := by
  unfold rowSlot
  rw [List.getElem?_map]
  cases rows[p / cap]? <;> simp

theorem rowSlot_cons_of_lt {p : ℕ} (inFirst : p < cap) (row : List α) (rows : List (List α)) :
    rowSlot cap (row :: rows) p = row[p]? := by
  rw [rowSlot, Nat.div_eq_of_lt inFirst, Nat.mod_eq_of_lt inFirst]
  rfl

theorem rowSlot_cons_cap_add (positive : 0 < cap) (row : List α) (rows : List (List α)) (p : ℕ) :
    rowSlot cap (row :: rows) (cap + p) = rowSlot cap rows p := by
  rw [rowSlot, rowSlot, Nat.add_comm, Nat.add_div_right p positive, Nat.add_mod_right]
  rfl

/-- Slot `stridedIndex d` of the rows holds the `d`-th element of the list
they make. The induction is on the rows: an index in the first row is its own
slot, the others move one row on. -/
theorem rowSlot_stridedIndex (positive : 0 < cap) {rows : List (List α)}
    (fit : ∀ row ∈ rows, row.length ≤ cap) (d : ℕ) :
    rowSlot cap rows (stridedIndex cap (rows.map List.length) d) = rows.flatten[d]? := by
  induction rows generalizing d with
  | nil => rfl
  | cons row rows ih =>
    have short : row.length ≤ cap := fit row List.mem_cons_self
    rw [List.map_cons, stridedIndex, List.flatten_cons, List.getElem?_append]
    by_cases inFirst : d < row.length
    · rw [if_pos inFirst, if_pos inFirst, rowSlot_cons_of_lt (by omega)]
    · rw [if_neg inFirst, if_neg inFirst, rowSlot_cons_cap_add positive,
        ih (fun row' member => fit row' (List.mem_cons_of_mem _ member))]

theorem strictMono_stridedIndex {counts : List ℕ} (fit : ∀ count ∈ counts, count ≤ cap) :
    StrictMono (stridedIndex cap counts) := by
  induction counts with
  | nil => exact strictMono_id
  | cons count counts ih =>
    have short : count ≤ cap := fit count List.mem_cons_self
    have rest := ih fun count' member => fit count' (List.mem_cons_of_mem _ member)
    intro d e before
    simp only [stridedIndex]
    by_cases dFirst : d < count
    · by_cases eFirst : e < count
      · rw [if_pos dFirst, if_pos eFirst]
        exact before
      · rw [if_pos dFirst, if_neg eFirst]
        omega
    · have later : d - count < e - count := by omega
      rw [if_neg dFirst, if_neg (by omega)]
      exact Nat.add_lt_add_left (rest later) cap

theorem stridedIndex_lt {counts : List ℕ} (fit : ∀ count ∈ counts, count ≤ cap) {d : ℕ}
    (within : d < counts.sum) : stridedIndex cap counts d < counts.length * cap := by
  induction counts generalizing d with
  | nil => simp at within
  | cons count counts ih =>
    have short : count ≤ cap := fit count List.mem_cons_self
    rw [List.sum_cons] at within
    rw [stridedIndex, List.length_cons, Nat.succ_mul]
    by_cases inFirst : d < count
    · rw [if_pos inFirst]
      omega
    · rw [if_neg inFirst]
      have rest := ih (fun count' member => fit count' (List.mem_cons_of_mem _ member))
        (show d - count < counts.sum by omega)
      omega

/-- The elements of each row numbered from the row's first slot are the
elements of the whole list with their slots. -/
theorem zipIdx_flatten {rows : List (List α)} (start : ℕ) :
    (rows.flatten.zipIdx).map (Prod.map id fun d => start * cap + stridedIndex cap (rows.map List.length) d) =
      (rows.zipIdx start).flatMap fun row => row.1.zipIdx (row.2 * cap) := by
  induction rows generalizing start with
  | nil => rfl
  | cons row rows ih =>
    rw [List.flatten_cons, List.zipIdx_append, List.map_append, List.zipIdx_cons, List.flatMap_cons,
      ← ih (start + 1)]
    congr 1
    · -- an index in the first row is its own slot, from the row's first slot on
      have shifted : row.zipIdx (start * cap) = row.zipIdx.map (Prod.map id fun d => d + start * cap) := by
        rw [List.map_snd_add_zipIdx_eq_zipIdx, Nat.add_zero]
      rw [show (row, start).1.zipIdx ((row, start).2 * cap) = row.zipIdx (start * cap) from rfl, shifted]
      refine List.map_congr_left fun entry member => ?_
      have inFirst : entry.2 < row.length := by
        have := List.mem_zipIdx member
        omega
      simp only [Prod.map, id, List.map_cons, stridedIndex, if_pos inFirst]
      rw [Nat.add_comm]
    · -- an index of a later row moves one row on
      rw [Nat.zero_add, List.zipIdx_eq_map_add, List.map_map]
      refine List.map_congr_left fun entry _ => ?_
      simp only [Function.comp_apply, Prod.map, id, stridedIndex, List.map_cons]
      simp [Nat.add_mul, Nat.add_assoc]

end Subspace.Lib
