import Mathlib.Logic.Function.Basic
import Mathlib.Data.Nat.Notation

/-!
# Hash-linked windows of a chain

A chain of records kept by height: `row k` is the hash of the record held at
height `k`, if any, and each record names the hash of its parent. Between a
low mark (the last height confirmed) and a high mark (the head) the chain is
kept whole. A record joins above the head; confirming a record `depth` below
the head drops it from the row and moves the low mark up to it; and a bad
record can be dropped, which takes the head back below it.

`LinkedWindow` says the row is a well-formed window: every height above the
low mark up to the head holds a record, each such record's parent is the
hash held one height below wherever that is still held, nothing is held at
or below the low mark but a start record at height zero while the head is
still shallow, and the head is at most `depth` above the low mark. The four
transitions keep it (`start`, `extend`, `extend_confirm`, `revert`), and so
does dropping a stale record above the head (`drop_above`).
-/

variable {R H : Type} (hash parent : R → H) (depth : ℕ)

/-- A well-formed window of a hash-linked chain held by height. -/
structure LinkedWindow (row : ℕ → Option H) (low high : ℕ) : Prop where
  /-- Every height above the low mark up to the head holds a record. -/
  present : ∀ k, low < k → k ≤ high → (row k).isSome
  /-- A record in the window names the hash held just below it. -/
  linked : ∀ k, low < k → k ≤ high → ∀ r, row k = some (hash r) →
    ∀ p, row (k - 1) = some p → parent r = p
  /-- Nothing is held at or below the low mark but a start record. -/
  above : ∀ k h, row k = some h → low < k ∨ (k = 0 ∧ low = 0)
  /-- The start record is dropped once the head reaches the depth. -/
  startShallow : (row 0).isSome → high < depth
  lowBelowHigh : low ≤ high
  highWithinDepth : high ≤ low + depth

namespace LinkedWindow

variable {hash parent depth} {row : ℕ → Option H} {low high : ℕ}

/-- A row holding nothing is a window. -/
theorem empty : LinkedWindow hash parent depth (fun _ => none) 0 0 where
  present k above below := absurd below (by omega)
  linked k above below := absurd below (by omega)
  above k h held := by cases held
  startShallow started := by cases started
  lowBelowHigh := Nat.le_refl _
  highWithinDepth := Nat.zero_le _

/-- A row holding only a start record is a window. -/
theorem start (deep : 0 < depth) (h : H) :
    LinkedWindow hash parent depth (Function.update (fun _ => none) 0 (some h)) 0 0 where
  present k above below := absurd below (by omega)
  linked k above below := absurd below (by omega)
  above k h' held := by
    by_cases zero : k = 0
    · exact .inr ⟨zero, rfl⟩
    · simp [Function.update_of_ne zero] at held
  startShallow _ := deep
  lowBelowHigh := Nat.le_refl _
  highWithinDepth := Nat.zero_le _

/-- The record at a height of the window after a new head `r`: the new head,
or what the row held. -/
theorem extend_held {r : R} {k : ℕ} {h : H}
    (held : Function.update row (high + 1) (some (hash r)) k = some h) :
    (k = high + 1 ∧ h = hash r) ∨ (k ≠ high + 1 ∧ row k = some h) := by
  by_cases top : k = high + 1
  · subst top
    simp only [Function.update_self, Option.some.injEq] at held
    exact .inl ⟨rfl, held.symm⟩
  · rw [Function.update_of_ne top] at held
    exact .inr ⟨top, held⟩

/-- What a row still holds after a record is dropped it held before, elsewhere. -/
theorem drop_held {k₀ k : ℕ} {h : H} (held : Function.update row k₀ none k = some h) :
    k ≠ k₀ ∧ row k = some h := by
  by_cases dropped : k = k₀
  · simp [dropped] at held
  · rw [Function.update_of_ne dropped] at held
    exact ⟨dropped, held⟩

section Extend

variable (w : LinkedWindow hash parent depth row low high) {r : R}
  (parentHeld : row high = some (parent r))
include w parentHeld

/-- The parent of a record in the window after a new head `r` is what the
row holds below it. -/
theorem extend_linked (injective : Function.Injective hash) {k : ℕ} (inside : low < k)
    (below : k ≤ high + 1) {r' : R}
    (held : Function.update row (high + 1) (some (hash r)) k = some (hash r'))
    {p : H} (under : row (k - 1) = some p) : parent r' = p := by
  rcases extend_held held with ⟨rfl, same⟩ | ⟨top, old⟩
  · -- the new head names the old head as its parent
    rw [injective same]
    simp only [Nat.add_sub_cancel] at under
    exact Option.some.inj (parentHeld.symm.trans under)
  · exact w.linked k inside (by omega) r' old p under

/-- A new head `r` on top of the window, with no record confirmed: either the
head stays below the depth, or the record the depth below it is gone. -/
theorem extend (injective : Function.Injective hash) (deep : 0 < depth)
    (unconfirmed : depth ≤ high + 1 →
      Function.update row (high + 1) (some (hash r)) (high + 1 - depth) = none) :
    LinkedWindow hash parent depth (Function.update row (high + 1) (some (hash r))) low
      (high + 1) where
  present k inside below := by
    by_cases top : k = high + 1
    · simp [top]
    · rw [Function.update_of_ne top]
      exact w.present k inside (by omega)
  linked k inside below r' held p under := by
    have under' : row (k - 1) = some p := by
      rwa [Function.update_of_ne (by omega)] at under
    exact w.extend_linked parentHeld injective inside below held under'
  above k h held := by
    rcases extend_held held with ⟨rfl, -⟩ | ⟨-, old⟩
    · exact .inl (by have := w.lowBelowHigh; omega)
    · exact w.above k h old
  startShallow started := by
    rw [Function.update_of_ne (by omega)] at started
    have shallow := w.startShallow started
    -- at the depth itself the start record would be the one to confirm
    by_contra reached
    have gone := unconfirmed (by omega)
    rw [show high + 1 - depth = 0 by omega, Function.update_of_ne (by omega)] at gone
    simp [gone] at started
  lowBelowHigh := by have := w.lowBelowHigh; omega
  highWithinDepth := by
    by_contra beyond
    -- the record the depth below the new head is inside the old window, so it is held
    have held := w.present (high + 1 - depth) (by omega) (by omega)
    have gone := unconfirmed (by omega)
    rw [Function.update_of_ne (by omega)] at gone
    simp [gone] at held

/-- A new head `r` on top of the window that confirms the record the depth
below it: the record leaves the row and the low mark moves up to it. -/
theorem extend_confirm (injective : Function.Injective hash) (deep : 0 < depth)
    (reached : depth ≤ high + 1) {h : H}
    (confirmed : Function.update row (high + 1) (some (hash r)) (high + 1 - depth) = some h) :
    LinkedWindow hash parent depth
      (Function.update (Function.update row (high + 1) (some (hash r))) (high + 1 - depth) none)
      (high + 1 - depth) (high + 1) :=
  -- the confirmed record is held, so it is above the low mark or the start record
  have lowBelow : low ≤ high + 1 - depth := by
    rw [Function.update_of_ne (by omega)] at confirmed
    rcases w.above _ h confirmed with inside | ⟨_, rfl⟩
    · omega
    · exact Nat.zero_le _
  { present := fun k inside below => by
      rw [Function.update_of_ne (by omega)]
      by_cases top : k = high + 1
      · simp [top]
      · rw [Function.update_of_ne top]
        exact w.present k (by omega) (by omega)
    linked := fun k inside below r' held p under => by
      rw [Function.update_of_ne (by omega)] at held
      by_cases confirmedBelow : k - 1 = high + 1 - depth
      · simp [confirmedBelow] at under
      · rw [Function.update_of_ne confirmedBelow, Function.update_of_ne (by omega)] at under
        exact w.extend_linked parentHeld injective (by omega) below held under
    above := fun k h' held => by
      obtain ⟨dropped, held⟩ := drop_held held
      rcases extend_held held with ⟨rfl, -⟩ | ⟨-, old⟩
      · exact .inl (by omega)
      · have highWithin := w.highWithinDepth
        rcases w.above k h' old with inside | ⟨rfl, -⟩
        · exact .inl (by omega)
        · -- a start record still held means the head is shallow, so it is the one confirmed
          have shallow := w.startShallow (by simp [old])
          exact absurd (by omega : 0 = high + 1 - depth) dropped
    startShallow := fun started => by
      by_cases dropped : 0 = high + 1 - depth
      · simp [← dropped] at started
      rw [Function.update_of_ne dropped, Function.update_of_ne (by omega)] at started
      have shallow := w.startShallow started
      omega
    lowBelowHigh := by omega
    highWithinDepth := by omega }

end Extend

/-- A stale record above the head can be dropped: the window does not reach it. -/
theorem drop_above (w : LinkedWindow hash parent depth row low high) {k₀ : ℕ}
    (beyond : high < k₀) : LinkedWindow hash parent depth (Function.update row k₀ none) low high where
  present k inside below := by
    rw [Function.update_of_ne (by omega)]
    exact w.present k inside below
  linked k inside below r held p under := by
    rw [Function.update_of_ne (by omega)] at held under
    exact w.linked k inside below r held p under
  above k h held := w.above k h (drop_held held).2
  startShallow started := by
    rw [Function.update_of_ne (by omega)] at started
    exact w.startShallow started
  lowBelowHigh := w.lowBelowHigh
  highWithinDepth := w.highWithinDepth

/-- Dropping a bad record at or below the head takes the head back to the
height below it. -/
theorem revert (w : LinkedWindow hash parent depth row low high) {k₀ : ℕ}
    (held : (row k₀).isSome) (below : k₀ ≤ high) :
    LinkedWindow hash parent depth (Function.update row k₀ none) low (k₀ - 1) where
  present k inside under := by
    rw [Function.update_of_ne (by omega)]
    exact w.present k inside (by omega)
  linked k inside under r heldHere p heldBelow := by
    rw [Function.update_of_ne (by omega)] at heldHere heldBelow
    exact w.linked k inside (by omega) r heldHere p heldBelow
  above k h heldHere := w.above k h (drop_held heldHere).2
  startShallow started := by
    by_cases dropped : 0 = k₀
    · simp [← dropped] at started
    · rw [Function.update_of_ne dropped] at started
      have shallow := w.startShallow started
      omega
  lowBelowHigh := by
    -- the dropped record is above the low mark, or it is the start record
    obtain ⟨h, heldAt⟩ := Option.isSome_iff_exists.mp held
    rcases w.above k₀ h heldAt with inside | ⟨rfl, rfl⟩
    · omega
    · exact Nat.zero_le _
  highWithinDepth := by have := w.highWithinDepth; omega

end LinkedWindow
