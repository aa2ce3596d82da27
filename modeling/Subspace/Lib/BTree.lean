import Mathlib

/-!
# Ordered sets and maps

The ordered collections of a standard library (`BTreeSet`, `BTreeMap`), over
a key type with a linear order. A set is a `Finset`; a map is its key set
with a value function; a map of the pallet's storage is a function, and
`Finset.sum_update_add` says how a write changes a sum over it. The one thing the order adds is the iteration order:
`Finset.ascending` lists a set in increasing order by insertion sort, which
is structural, so a concrete run can be evaluated by `decide`.
-/

namespace Finset

variable {K : Type} [LinearOrder K]

/-- The elements of `s` in increasing order, the iteration order of an ordered set. -/
def ascending (s : Finset K) : List K :=
  Quot.liftOn s.val (fun l => l.insertionSort (· ≤ ·)) fun a b h =>
    List.Perm.eq_of_pairwise' (List.pairwise_insertionSort _ a) (List.pairwise_insertionSort _ b)
      ((List.perm_insertionSort _ a).trans (h.trans (List.perm_insertionSort _ b).symm))

theorem coe_ascending (s : Finset K) : (s.ascending : Multiset K) = s.val := by
  rcases s with ⟨⟨l⟩, _⟩
  exact Multiset.coe_eq_coe.mpr (List.perm_insertionSort _ l)

@[simp] theorem mem_ascending {s : Finset K} {k : K} : k ∈ s.ascending ↔ k ∈ s := by
  rw [← Multiset.mem_coe, coe_ascending, Finset.mem_val]

theorem nodup_ascending (s : Finset K) : s.ascending.Nodup :=
  Multiset.coe_nodup.mp (coe_ascending s ▸ s.nodup)

theorem length_ascending (s : Finset K) : s.ascending.length = s.card := by
  rw [← Multiset.coe_card, coe_ascending, Finset.card_val]

/-- Summing over the iteration order is summing over the set. -/
theorem sum_ascending {M : Type} [AddCommMonoid M] (s : Finset K) (f : K → M) :
    (s.ascending.map f).sum = ∑ x ∈ s, f x := by
  rw [Finset.sum_eq_multiset_sum, ← coe_ascending, Multiset.map_coe, Multiset.sum_coe]

end Finset

namespace Finset

variable {ι M : Type} [DecidableEq ι] [AddCommMonoid M]

/-- Writing `b` at `i` of a map changes its sum by `b` against the old value. -/
theorem sum_update_add (s : Finset ι) {i : ι} (member : i ∈ s) (f : ι → M) (b : M) :
    ∑ x ∈ s, Function.update f i b x + f i = ∑ x ∈ s, f x + b := by
  rw [sum_update_of_mem member, sdiff_singleton_eq_erase, ← sum_erase_add s f member]
  ac_rfl

end Finset

/-- An ordered map: a finite key set and the value stored under each key. -/
structure BTreeMap (K V : Type) where
  keys : Finset K
  val : K → V

namespace BTreeMap

variable {K V : Type} [DecidableEq K]

/-- The map with no entries. -/
def empty (default : V) : BTreeMap K V := ⟨∅, fun _ => default⟩

/-- The value stored under `k`, if any. -/
def get? (m : BTreeMap K V) (k : K) : Option V :=
  if k ∈ m.keys then some (m.val k) else none

/-- Store `v` under `k`, replacing what was there. -/
def insert (m : BTreeMap K V) (k : K) (v : V) : BTreeMap K V :=
  ⟨Insert.insert k m.keys, Function.update m.val k v⟩

/-- Drop the entry under `k`. -/
def remove (m : BTreeMap K V) (k : K) : BTreeMap K V := ⟨m.keys.erase k, m.val⟩

/-- `entry(k).and_modify(f).or_insert(v)`. -/
def upsert (m : BTreeMap K V) (k : K) (f : V → V) (v : V) : BTreeMap K V :=
  if k ∈ m.keys then m.insert k (f (m.val k)) else m.insert k v

/-- The entries in increasing key order. -/
def entries [LinearOrder K] (m : BTreeMap K V) : List (K × V) :=
  m.keys.ascending.map fun k => (k, m.val k)

omit [DecidableEq K] in
@[simp] theorem keys_empty (default : V) : (empty default : BTreeMap K V).keys = ∅ := rfl

@[simp] theorem keys_insert (m : BTreeMap K V) (k : K) (v : V) :
    (m.insert k v).keys = Insert.insert k m.keys := rfl

@[simp] theorem keys_remove (m : BTreeMap K V) (k : K) : (m.remove k).keys = m.keys.erase k := rfl

@[simp] theorem val_insert_self (m : BTreeMap K V) (k : K) (v : V) : (m.insert k v).val k = v := by
  simp [insert]

theorem val_insert_ne (m : BTreeMap K V) {k k' : K} (v : V) (ne : k' ≠ k) :
    (m.insert k v).val k' = m.val k' := by
  simp [insert, ne]

@[simp] theorem val_remove (m : BTreeMap K V) (k : K) : (m.remove k).val = m.val := rfl

theorem get?_eq_some {m : BTreeMap K V} {k : K} {v : V} :
    m.get? k = some v ↔ k ∈ m.keys ∧ m.val k = v := by
  unfold get?
  split <;> simp_all

theorem get?_eq_none {m : BTreeMap K V} {k : K} : m.get? k = none ↔ k ∉ m.keys := by
  unfold get?
  split <;> simp_all

/-- Inserting under a new key adds its value to the sum of the values. -/
theorem sum_insert_of_not_mem [AddCommMonoid V] (m : BTreeMap K V) {k : K} (v : V)
    (fresh : k ∉ m.keys) :
    ∑ j ∈ (m.insert k v).keys, (m.insert k v).val j = v + ∑ j ∈ m.keys, m.val j := by
  rw [keys_insert, Finset.sum_insert fresh, val_insert_self]
  congr 1
  refine Finset.sum_congr rfl fun j member => val_insert_ne m v ?_
  rintro rfl
  exact fresh member

omit [DecidableEq K] in
theorem length_entries [LinearOrder K] (m : BTreeMap K V) : m.entries.length = m.keys.card := by
  rw [entries, List.length_map, Finset.length_ascending]

omit [DecidableEq K] in
@[simp] theorem entries_empty [LinearOrder K] (default : V) :
    (empty default : BTreeMap K V).entries = [] := rfl

omit [DecidableEq K] in
theorem mem_keys_of_mem_entries [LinearOrder K] {m : BTreeMap K V} {entry : K × V}
    (member : entry ∈ m.entries) : entry.1 ∈ m.keys := by
  obtain ⟨k, listed, rfl⟩ := List.mem_map.mp member
  exact Finset.mem_ascending.mp listed

omit [DecidableEq K] in
/-- A sum over the entries is a sum over the keys. -/
theorem sum_entries [LinearOrder K] {M : Type} [AddCommMonoid M] (m : BTreeMap K V)
    (g : K × V → M) : (m.entries.map g).sum = ∑ k ∈ m.keys, g (k, m.val k) := by
  rw [entries, List.map_map]
  exact Finset.sum_ascending _ _

/-- Adding `v` to an entry, or storing it under a new key, adds `v` to the sum
of the values. -/
theorem sum_upsert_add [AddCancelCommMonoid V] (m : BTreeMap K V) (k : K) (v : V) :
    ∑ j ∈ (m.upsert k (· + v) v).keys, (m.upsert k (· + v) v).val j =
      ∑ j ∈ m.keys, m.val j + v := by
  unfold upsert
  split
  · rename_i present
    have written := Finset.sum_update_add m.keys present m.val (m.val k + v)
    simp only [insert, Finset.insert_eq_of_mem present]
    rw [← add_assoc, add_right_comm] at written
    exact add_right_cancel written
  · rename_i fresh
    rw [sum_insert_of_not_mem m v fresh, add_comm]

/-- Adding to an entry keeps every key and lowers no value. -/
theorem le_val_upsert_add (m : BTreeMap K ℕ) (k : K) (v : ℕ) {j : K} (present : j ∈ m.keys) :
    j ∈ (m.upsert k (· + v) v).keys ∧ m.val j ≤ (m.upsert k (· + v) v).val j := by
  unfold upsert
  split
  · by_cases same : j = k
    · subst same
      simp [insert, present]
    · simp [insert, same, present]
  · rename_i fresh
    have other : j ≠ k := fun same => fresh (same ▸ present)
    simp [insert, other, present]

/-- Removing a key that is not there changes nothing. -/
theorem remove_of_not_mem (m : BTreeMap K V) {k : K} (absent : k ∉ m.keys) : m.remove k = m := by
  simp [remove, Finset.erase_eq_of_notMem absent]

/-- Removing a present key takes its value off the sum of the values. -/
theorem sum_remove_add [AddCommMonoid V] (m : BTreeMap K V) {k : K} (present : k ∈ m.keys) :
    ∑ j ∈ (m.remove k).keys, (m.remove k).val j + m.val k = ∑ j ∈ m.keys, m.val j := by
  simp only [keys_remove, val_remove]
  exact Finset.sum_erase_add _ _ present

end BTreeMap

namespace BTreeMap

variable {K V : Type} [DecidableEq K]

/-- The values of a map, as a multiset: `values()` without its order. -/
def values (m : BTreeMap K V) : Multiset V := m.keys.val.map m.val

/-- The entry with the greatest key, `last_key_value()`. -/
def lastKeyValue [LinearOrder K] (m : BTreeMap K V) : Option (K × V) := m.entries.getLast?

/-- `pop_last()`: the entry with the greatest key, and the map without it. -/
def popLast [LinearOrder K] (m : BTreeMap K V) : Option (K × V) × BTreeMap K V :=
  match m.lastKeyValue with
  | none => (none, m)
  | some (k, v) => (some (k, v), m.remove k)

/-- `extract_if` with a test of the key: the entries that pass, in key order, and the map of
the others. -/
def extractIf [LinearOrder K] (m : BTreeMap K V) (extract : K → Bool) :
    BTreeMap K V × List (K × V) :=
  (⟨m.keys.filter (extract · = false), m.val⟩, m.entries.filter (extract ·.1))

theorem values_insert_of_not_mem (m : BTreeMap K V) {k : K} (v : V) (fresh : k ∉ m.keys) :
    (m.insert k v).values = v ::ₘ m.values := by
  unfold values
  rw [keys_insert, Finset.insert_val_of_notMem fresh, Multiset.map_cons, val_insert_self]
  congr 1
  apply Multiset.map_congr rfl
  intro j member
  exact val_insert_ne m v fun same => fresh (same ▸ member)

/-- Removing a present key takes its value out of the values. -/
theorem values_remove_of_mem (m : BTreeMap K V) {k : K} (present : k ∈ m.keys) :
    m.val k ::ₘ (m.remove k).values = m.values := by
  unfold values
  rw [keys_remove, val_remove, Finset.erase_val, ← Multiset.map_cons,
    Multiset.cons_erase (Finset.mem_def.1 present)]

/-- Replacing the value under a present key replaces it among the values. -/
theorem values_insert_of_mem (m : BTreeMap K V) {k : K} (v : V) (present : k ∈ m.keys) :
    m.val k ::ₘ (m.insert k v).values = v ::ₘ m.values := by
  have removed := values_remove_of_mem (m.insert k v) (by simp : k ∈ (m.insert k v).keys)
  have kept := values_remove_of_mem m present
  rw [val_insert_self] at removed
  -- both maps without `k` have the same values
  have same : (m.insert k v).remove k = ⟨m.keys.erase k, Function.update m.val k v⟩ := by
    simp [remove, insert, Finset.erase_insert_eq_erase]
  rw [← removed, ← kept, same]
  unfold values remove
  simp only
  rw [Multiset.cons_swap]
  congr 2
  apply Multiset.map_congr rfl
  intro j member
  exact Function.update_of_ne (Finset.ne_of_mem_erase (Finset.mem_def.2 member)) v m.val

/-- Inserting adds the new value and drops at most the one it replaces. -/
theorem values_insert_le (m : BTreeMap K V) (k : K) (v : V) :
    (m.insert k v).values ≤ v ::ₘ m.values := by
  by_cases present : k ∈ m.keys
  · rw [← values_insert_of_mem m v present]
    exact Multiset.le_cons_self _ _
  · rw [values_insert_of_not_mem m v present]

omit [DecidableEq K] in
@[simp] theorem values_empty (default : V) : (empty default : BTreeMap K V).values = 0 := rfl

omit [DecidableEq K] in
@[simp] theorem card_values (m : BTreeMap K V) : Multiset.card m.values = m.keys.card := by
  simp [values]

omit [DecidableEq K] in
theorem mem_values {m : BTreeMap K V} {v : V} : v ∈ m.values ↔ ∃ k ∈ m.keys, m.val k = v := by
  simp [values]

omit [DecidableEq K] in
/-- The values of the entries in key order are the values. -/
theorem coe_map_snd_entries [LinearOrder K] (m : BTreeMap K V) :
    ((m.entries.map Prod.snd : List V) : Multiset V) = m.values := by
  rw [entries, List.map_map, ← Multiset.map_coe, Finset.coe_ascending]
  rfl

omit [DecidableEq K] in
theorem mem_keys_of_lastKeyValue [LinearOrder K] {m : BTreeMap K V} {k : K} {v : V}
    (last : m.lastKeyValue = some (k, v)) : k ∈ m.keys ∧ m.val k = v := by
  have member := List.mem_of_getLast? last
  obtain ⟨j, listed, same⟩ := List.mem_map.mp member
  cases same
  exact ⟨Finset.mem_ascending.mp listed, rfl⟩

/-- `pop_last` takes one entry out of the map, or finds it empty. -/
theorem popLast_cases [LinearOrder K] (m : BTreeMap K V) :
    (m.popLast = (none, m)) ∨
      ∃ k ∈ m.keys, m.popLast = (some (k, m.val k), m.remove k) := by
  unfold popLast
  split
  · exact .inl rfl
  · rename_i k v last
    obtain ⟨present, rfl⟩ := mem_keys_of_lastKeyValue last
    exact .inr ⟨k, present, rfl⟩

omit [DecidableEq K] in
/-- The entries `extract_if` takes out and the map it leaves have the values of the map
between them. -/
theorem values_extractIf [LinearOrder K] (m : BTreeMap K V) (extract : K → Bool) :
    (m.extractIf extract).1.values + (((m.extractIf extract).2.map Prod.snd : List V) :
      Multiset V) = m.values := by
  -- the entries taken out are those of the keys that pass, in key order
  have taken : (((m.entries.filter (extract ·.1)).map Prod.snd : List V) : Multiset V) =
      (m.keys.val.filter (extract · = true)).map m.val := by
    have filtered : (m.entries.filter (extract ·.1)).map Prod.snd =
        (m.keys.ascending.filter fun k => decide (extract k = true)).map m.val := by
      rw [entries, List.filter_map, List.map_map]
      congr 1
      apply List.filter_congr
      intro k _
      simp
    rw [filtered, ← Multiset.map_coe, ← Multiset.filter_coe, Finset.coe_ascending]
  unfold extractIf values
  rw [taken, Finset.filter_val, ← Multiset.map_add, add_comm]
  congr 1
  convert Multiset.filter_add_not (extract · = true) m.keys.val using 2
  simp

end BTreeMap

namespace Function

variable {α β γ : Type} [DecidableEq α] [DecidableEq β]

/-- Writing one entry of a map of maps leaves every other entry. -/
theorem update_update_apply_of_ne (f : α → β → γ) {a a' : α} {b b' : β} (v : γ)
    (ne : (a', b') ≠ (a, b)) : update f a (update (f a) b v) a' b' = f a' b' := by
  by_cases same : a' = a
  · subst same
    have other : b' ≠ b := fun e => ne (by rw [e])
    simp [other]
  · simp [same]

end Function
