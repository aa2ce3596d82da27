import Subspace.Lib.BTree

/-!
# Queues under keys

A map from keys to queues is filled from a keyed list by pushing each value to the back of
its key's queue (`groupBy`), and drained along a list of keys by popping the front of the
queue of each key in turn (`drain`). Drained along any permutation of the keys of the list,
no pop finds its key missing or its queue empty, the keys with the values popped for them
are a permutation of the list, and the values of each key come out in their order in the
list (`drain_groupBy_of_perm`).
-/

namespace BTreeMap

variable {K V : Type} [DecidableEq K]

/-- The queue under `k`, empty where `k` has none. -/
def queue (m : BTreeMap K (List V)) (k : K) : List V := (m.get? k).getD []

/-- `entry(k).or_default().push_back(v)`. -/
def pushBack (m : BTreeMap K (List V)) (k : K) (v : V) : BTreeMap K (List V) :=
  m.upsert k (· ++ [v]) [v]

/-- `get_mut(k)` and `pop_front()` on the queue it finds: `none` where the key is absent or
its queue is empty. -/
def popFront (m : BTreeMap K (List V)) (k : K) : Option (V × BTreeMap K (List V)) :=
  match m.get? k with
  | some (v :: rest) => some (v, m.insert k rest)
  | _ => none

/-- The values of a keyed list in queues under their keys, each queue in list order. -/
def groupBy (entries : List (K × V)) : BTreeMap K (List V) :=
  entries.foldl (fun m e => m.pushBack e.1 e.2) (empty [])

/-- Pop the front of the queue of each key in turn; `none` as soon as a pop fails. -/
def drain : BTreeMap K (List V) → List K → Option (List V)
  | _, [] => some []
  | m, k :: ks =>
    match m.popFront k with
    | some (v, m') => (drain m' ks).map (v :: ·)
    | none => none

theorem get?_insert (m : BTreeMap K V) (k j : K) (v : V) :
    (m.insert k v).get? j = if j = k then some v else m.get? j := by
  by_cases same : j = k
  · subst same
    simp [get?]
  · simp [get?, same, val_insert_ne m v same]

@[simp] theorem keys_pushBack (m : BTreeMap K (List V)) (k : K) (v : V) :
    (m.pushBack k v).keys = Insert.insert k m.keys := by
  unfold pushBack upsert
  split <;> rfl

theorem queue_insert (m : BTreeMap K (List V)) (k j : K) (q : List V) :
    (m.insert k q).queue j = if j = k then q else m.queue j := by
  rw [queue, get?_insert]
  split <;> rfl

theorem queue_pushBack (m : BTreeMap K (List V)) (k j : K) (v : V) :
    (m.pushBack k v).queue j = if j = k then m.queue k ++ [v] else m.queue j := by
  unfold pushBack upsert
  -- a present key has its queue extended, an absent one gets a queue of one value
  split
  · rename_i present
    have stored : m.queue k = m.val k := by
      rw [queue, get?_eq_some.2 ⟨present, rfl⟩]
      rfl
    rw [queue_insert, stored]
  · rename_i absent
    have empty : m.queue k = [] := by
      rw [queue, get?_eq_none.2 absent]
      rfl
    rw [queue_insert, empty]
    rfl

/-- Pushing a keyed list onto the queues appends to each queue the values of its key. -/
theorem queue_foldl_pushBack (k : K) : ∀ (entries : List (K × V)) (m : BTreeMap K (List V)),
    (entries.foldl (fun m e => m.pushBack e.1 e.2) m).queue k =
      m.queue k ++ (entries.filter (·.1 = k)).map Prod.snd
  | [], m => by simp
  | e :: entries, m => by
    rw [List.foldl_cons, queue_foldl_pushBack k entries, queue_pushBack, List.filter_cons]
    by_cases same : k = e.1
    · subst same
      simp
    · simp [same, Ne.symm same]

theorem keys_foldl_pushBack : ∀ (entries : List (K × V)) (m : BTreeMap K (List V)),
    (entries.foldl (fun m e => m.pushBack e.1 e.2) m).keys =
      m.keys ∪ (entries.map Prod.fst).toFinset
  | [], m => by simp
  | e :: entries, m => by
    rw [List.foldl_cons, keys_foldl_pushBack entries, keys_pushBack]
    ext k
    simp only [Finset.mem_union, Finset.mem_insert, List.mem_toFinset, List.map_cons,
      List.mem_cons]
    tauto

theorem queue_groupBy (entries : List (K × V)) (k : K) :
    (groupBy entries).queue k = (entries.filter (·.1 = k)).map Prod.snd := by
  rw [groupBy, queue_foldl_pushBack]
  rfl

theorem mem_keys_groupBy {entries : List (K × V)} {k : K} :
    k ∈ (groupBy entries).keys ↔ k ∈ entries.map Prod.fst := by
  rw [groupBy, keys_foldl_pushBack]
  simp [empty]

theorem popFront_of_queue {m : BTreeMap K (List V)} {k : K} {v : V} {rest : List V}
    (present : k ∈ m.keys) (front : m.queue k = v :: rest) :
    m.popFront k = some (v, m.insert k rest) := by
  have found : m.get? k = some (v :: rest) := by
    rw [← front, queue, get?_eq_some.2 ⟨present, rfl⟩]
    rfl
  rw [popFront, found]

/-- Draining along keys that are all present, none more often than its queue is long: every
pop succeeds, and the values popped for each key are the front of its queue. -/
theorem drain_spec : ∀ (ks : List K) (m : BTreeMap K (List V)),
    (∀ k ∈ ks, k ∈ m.keys) → (∀ k, ks.count k ≤ (m.queue k).length) →
    ∃ out, m.drain ks = some out ∧ out.length = ks.length ∧
      ∀ k, ((ks.zip out).filter (·.1 = k)).map Prod.snd = (m.queue k).take (ks.count k)
  | [], m, _, _ => ⟨[], rfl, rfl, fun k => by simp⟩
  | k :: ks, m, present, enough => by
    -- the first key's queue has a front, since the key is drained at least once
    obtain ⟨v, rest, front⟩ : ∃ v rest, m.queue k = v :: rest := by
      have long := enough k
      rw [List.count_cons_self] at long
      cases queued : m.queue k with
      | nil => simp [queued] at long
      | cons v rest => exact ⟨v, rest, rfl⟩
    have present' : ∀ j ∈ ks, j ∈ (m.insert k rest).keys := by
      intro j member
      simp only [keys_insert, Finset.mem_insert]
      exact Or.inr (present j (List.mem_cons_of_mem k member))
    have enough' : ∀ j, ks.count j ≤ ((m.insert k rest).queue j).length := by
      intro j
      have long := enough j
      rw [queue_insert]
      by_cases same : j = k
      · subst same
        rw [List.count_cons_self, front] at long
        simpa using long
      · rw [List.count_cons_of_ne (Ne.symm same)] at long
        simpa [same] using long
    obtain ⟨out, drained, length, popped⟩ := drain_spec ks (m.insert k rest) present' enough'
    refine ⟨v :: out, by simp [drain, popFront_of_queue (present k List.mem_cons_self) front,
      drained], by simp [length], fun j => ?_⟩
    have later := popped j
    rw [queue_insert] at later
    rw [List.zip_cons_cons, List.filter_cons]
    by_cases same : j = k
    · subst same
      simp [later, front, List.count_cons_self]
    · simp [Ne.symm same, later, same, List.count_cons_of_ne (Ne.symm same)]

/-- A list of pairs is determined, key by key, by the second components of the pairs with
that key. -/
theorem filter_fst_eq_map (l : List (K × V)) (k : K) :
    l.filter (·.1 = k) = ((l.filter (·.1 = k)).map Prod.snd).map (Prod.mk k) := by
  induction l with
  | nil => rfl
  | cons e l ih =>
    rw [List.filter_cons]
    by_cases same : e.1 = k
    · rw [if_pos (decide_eq_true same), List.map_cons, List.map_cons, ← ih, ← same]
    · rw [if_neg (by simpa using same)]
      exact ih

/-- Two lists of pairs with the same pairs under every key are permutations of each other. -/
theorem perm_of_filter_fst_eq {l₁ l₂ : List (K × V)}
    (same : ∀ k, (l₁.filter (·.1 = k)).map Prod.snd = (l₂.filter (·.1 = k)).map Prod.snd) :
    l₁.Perm l₂ := by
  classical
  rw [List.perm_iff_count]
  intro e
  -- a pair is counted among the pairs of its own key
  have onKey : ∀ l : List (K × V), l.count e = (l.filter (·.1 = e.1)).count e :=
    fun l => (List.count_filter (by simp)).symm
  rw [onKey l₁, onKey l₂, filter_fst_eq_map l₁, filter_fst_eq_map l₂, same e.1]

/-- Draining the queues of a keyed list along a permutation of its keys gives the list back,
reordered across keys and in order within each key. -/
theorem drain_groupBy_of_perm {entries : List (K × V)} {ks : List K}
    (perm : ks.Perm (entries.map Prod.fst)) :
    ∃ out, (groupBy entries).drain ks = some out ∧ (ks.zip out).Perm entries ∧
      out.Perm (entries.map Prod.snd) ∧
      ∀ k, ((ks.zip out).filter (·.1 = k)).map Prod.snd =
        (entries.filter (·.1 = k)).map Prod.snd := by
  -- each key is drained as often as it occurs in the list, the length of its queue
  have counted : ∀ k, ks.count k = ((groupBy entries).queue k).length := by
    intro k
    rw [perm.count_eq, queue_groupBy, List.length_map, List.count_eq_countP, List.countP_map,
      List.countP_eq_length_filter]
    rfl
  have present : ∀ k ∈ ks, k ∈ (groupBy entries).keys := fun k member =>
    mem_keys_groupBy.2 (perm.subset member)
  obtain ⟨out, drained, length, popped⟩ :=
    drain_spec ks (groupBy entries) present fun k => (counted k).le
  have byKey : ∀ k, ((ks.zip out).filter (·.1 = k)).map Prod.snd =
      (entries.filter (·.1 = k)).map Prod.snd := by
    intro k
    rw [popped k, counted k, List.take_length, queue_groupBy]
  have pairs : (ks.zip out).Perm entries := perm_of_filter_fst_eq byKey
  have values : (ks.zip out).map Prod.snd = out := List.map_snd_zip (by omega)
  exact ⟨out, drained, pairs, values ▸ pairs.map Prod.snd, byKey⟩

end BTreeMap
