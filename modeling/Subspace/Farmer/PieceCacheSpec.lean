import Subspace.Farmer.PieceCache

/-!
# No cache slot is given to two pieces

The slots a `PieceCachesState` holds are those of its stored pieces and its dangling free
offsets. `SlotsOwned` says that none is held twice, that each is below the high-water mark of
an existing backend, and that no mark is above its backend's capacity; `SlotsCounted` says that
the slots held are as many as the marks add up to, so that no slot below a mark is lost.

Every worker operation either keeps the slots and the backends as they are, or allocates the
slot at one backend's mark (`SlotEffect`); both keep both invariants. `initialize` establishes
`SlotsOwned` from caches whose contents list their slots in order, and `SlotsCounted` as well
when no cache holds one piece in two slots. Without that last condition `SlotsCounted` fails:
the map of one cache's stored pieces keeps only the last slot of a piece, and the other slot is
neither stored nor dangling; no later operation makes up for it
(`piece_cache_slot_lost_on_duplicate`).
-/

namespace Subspace.Farmer

variable {K : Type} [LinearOrder K]

namespace PieceCachesState

/-- The slots the state holds: those of the stored pieces and the dangling free offsets. -/
def offsets (state : PieceCachesState K) : Multiset FarmerCacheOffset :=
  state.storedPieces.values + state.danglingFreeOffsets

end PieceCachesState

/-- No slot is held twice, each is below the high-water mark of the backend it names, and no
mark is above its backend's capacity. -/
structure SlotsOwned (offsets : Multiset FarmerCacheOffset) (backends : List CacheBackend) :
    Prop where
  nodup : offsets.Nodup
  inBackend : ∀ offset ∈ offsets, ∃ backend, backends[offset.cacheIndex]? = some backend ∧
    offset.pieceOffset < backend.usedCapacity
  withinCapacity : ∀ backend ∈ backends, backend.usedCapacity ≤ backend.totalCapacity

/-- The slots held are as many as the high-water marks add up to. -/
def SlotsCounted (offsets : Multiset FarmerCacheOffset) (backends : List CacheBackend) : Prop :=
  Multiset.card offsets = (backends.map (·.usedCapacity)).sum

/-- What an operation does to the slots: nothing, or it allocates the slot at the high-water
mark of one backend with room. -/
inductive SlotEffect (state state' : PieceCachesState K) : Prop
  | keep : state'.offsets = state.offsets → state'.backends = state.backends →
      SlotEffect state state'
  | allocate (cacheIndex : ℕ) (backend : CacheBackend) :
      state.backends[cacheIndex]? = some backend →
      backend.usedCapacity < backend.totalCapacity →
      state'.offsets = ⟨cacheIndex, backend.usedCapacity⟩ ::ₘ state.offsets →
      state'.backends = state.backends.set cacheIndex
        { backend with usedCapacity := backend.usedCapacity + 1 } →
      SlotEffect state state'

/-! ## Allocating a slot -/

/-- Raising one mark by one raises their sum by one. -/
theorem sum_map_usedCapacity_set : ∀ (backends : List CacheBackend) {cacheIndex : ℕ}
    {backend : CacheBackend}, backends[cacheIndex]? = some backend →
    ((backends.set cacheIndex { backend with usedCapacity := backend.usedCapacity + 1 }).map
      (·.usedCapacity)).sum = (backends.map (·.usedCapacity)).sum + 1
  | [], _, _, found => by simp at found
  | first :: rest, 0, backend, found => by
    simp only [List.getElem?_cons_zero, Option.some.injEq] at found
    subst found
    simp only [List.set_cons_zero, List.map_cons, List.sum_cons]
    omega
  | first :: rest, cacheIndex + 1, backend, found => by
    rw [List.getElem?_cons_succ] at found
    simp only [List.set_cons_succ, List.map_cons, List.sum_cons,
      sum_map_usedCapacity_set rest found]
    omega

theorem SlotsOwned.allocate {offsets : Multiset FarmerCacheOffset}
    {backends : List CacheBackend} (owned : SlotsOwned offsets backends) {cacheIndex : ℕ}
    {backend : CacheBackend} (found : backends[cacheIndex]? = some backend)
    (room : backend.usedCapacity < backend.totalCapacity) :
    SlotsOwned (⟨cacheIndex, backend.usedCapacity⟩ ::ₘ offsets)
      (backends.set cacheIndex { backend with usedCapacity := backend.usedCapacity + 1 }) := by
  have inside : cacheIndex < backends.length := (List.getElem?_eq_some_iff.1 found).1
  -- the raised backend, and every other one as it was
  have raised : ∀ j, (backends.set cacheIndex
      { backend with usedCapacity := backend.usedCapacity + 1 })[j]? =
      if cacheIndex = j then some { backend with usedCapacity := backend.usedCapacity + 1 }
      else backends[j]? := by
    intro j
    rw [List.getElem?_set]
    split_ifs <;> rfl
  refine ⟨Multiset.nodup_cons.2 ⟨fun held => ?_, owned.nodup⟩, fun offset member => ?_,
    fun other member => ?_⟩
  · -- a held slot of this backend is below its mark
    obtain ⟨backend', found', below⟩ := owned.inBackend _ held
    rw [found] at found'
    cases found'
    exact Nat.lt_irrefl _ below
  · rcases Multiset.mem_cons.1 member with rfl | held
    · exact ⟨_, by rw [raised, if_pos rfl], Nat.lt_succ_self _⟩
    · obtain ⟨backend', found', below⟩ := owned.inBackend offset held
      rw [raised]
      split_ifs with same
      · subst same
        rw [found] at found'
        cases found'
        exact ⟨_, rfl, Nat.lt_succ_of_lt below⟩
      · exact ⟨backend', found', below⟩
  · rcases List.mem_or_eq_of_mem_set member with old | rfl
    · exact owned.withinCapacity other old
    · exact room

theorem SlotEffect.owned {state state' : PieceCachesState K} (effect : SlotEffect state state')
    (owned : SlotsOwned state.offsets state.backends) :
    SlotsOwned state'.offsets state'.backends := by
  cases effect with
  | keep offsets backends =>
    rw [offsets, backends]
    exact owned
  | allocate cacheIndex backend found room offsets backends =>
    rw [offsets, backends]
    exact owned.allocate found room

theorem SlotEffect.counted {state state' : PieceCachesState K} (effect : SlotEffect state state')
    (counted : SlotsCounted state.offsets state.backends) :
    SlotsCounted state'.offsets state'.backends := by
  cases effect with
  | keep offsets backends =>
    rw [offsets, backends]
    exact counted
  | allocate cacheIndex backend found room offsets backends =>
    unfold SlotsCounted at counted ⊢
    rw [offsets, backends, Multiset.card_cons, sum_map_usedCapacity_set _ found, counted]

/-! ## The operations -/

namespace PieceCachesState

theorem offsets_pushStoredPiece (state : PieceCachesState K) {key : K}
    (fresh : key ∉ state.storedPieces.keys) (offset : FarmerCacheOffset) :
    (state.pushStoredPiece key offset).2.offsets = offset ::ₘ state.offsets := by
  simp only [offsets, pushStoredPiece, BTreeMap.values_insert_of_not_mem _ _ fresh,
    Multiset.cons_add]

theorem offsets_pushDanglingFreeOffset (state : PieceCachesState K) (offset : FarmerCacheOffset) :
    (state.pushDanglingFreeOffset offset).offsets = offset ::ₘ state.offsets := by
  simp only [offsets, pushDanglingFreeOffset]
  rw [← Multiset.coe_add, Multiset.coe_singleton, ← add_assoc,
    add_comm _ ({offset} : Multiset _), Multiset.singleton_add]

/-- Taking a stored piece out takes its slot out of those held. -/
theorem offsets_remove {state : PieceCachesState K} {key : K}
    (present : key ∈ state.storedPieces.keys) :
    state.storedPieces.val key ::ₘ
      ({ state with storedPieces := state.storedPieces.remove key } : PieceCachesState K).offsets =
      state.offsets := by
  simp only [offsets]
  rw [← Multiset.cons_add, BTreeMap.values_remove_of_mem _ present]

@[simp] theorem getBackend_storedPieces (state : PieceCachesState K)
    (storedPieces : BTreeMap K FarmerCacheOffset) (cacheIndex : ℕ) :
    ({ state with storedPieces } : PieceCachesState K).getBackend cacheIndex =
      state.getBackend cacheIndex := rfl

@[simp] theorem getBackend_danglingFreeOffsets (state : PieceCachesState K)
    (danglingFreeOffsets : List FarmerCacheOffset) (cacheIndex : ℕ) :
    ({ state with danglingFreeOffsets } : PieceCachesState K).getBackend cacheIndex =
      state.getBackend cacheIndex := rfl

/-- What `pop_free_offset` does: it takes the first dangling free offset, or else the slot at
the mark of a backend with room, or finds none and changes nothing. -/
theorem popFreeOffset_cases (state : PieceCachesState K) :
    (∃ offset rest, state.danglingFreeOffsets = offset :: rest ∧
      state.popFreeOffset = (some offset, { state with danglingFreeOffsets := rest })) ∨
    (∃ cacheIndex backend, state.backends[cacheIndex]? = some backend ∧
      backend.usedCapacity < backend.totalCapacity ∧
      state.popFreeOffset = (some ⟨cacheIndex, backend.usedCapacity⟩,
        { state with backends := (state.backends.set cacheIndex
          { backend with usedCapacity := backend.usedCapacity + 1 }) })) ∨
    state.popFreeOffset = (none, state) := by
  unfold popFreeOffset
  split
  · rename_i offset rest dangling
    exact .inl ⟨offset, rest, dangling, rfl⟩
  · split
    · rename_i backend cacheIndex found
      have room := List.find?_some found
      simp only [decide_eq_true_eq] at room
      -- the backend found is the one at its index
      have listed : (backend, cacheIndex) ∈ state.backends.zipIdx := by
        have sorted := List.mem_of_find?_eq_some found
        rw [sortedBackends, List.mem_reverse, List.mem_mergeSort] at sorted
        exact (List.mem_filter.1 sorted).1
      have atIndex : state.backends[cacheIndex]? = some backend := by
        simpa using (List.mem_zipIdx_iff_getElem?.1 listed)
      refine .inr (.inl ⟨cacheIndex, backend, atIndex, room, ?_⟩)
      simp [CacheBackend.nextFree, room]
    · exact .inr (.inr rfl)

/-- A slot the state holds names a backend. -/
theorem getBackend_of_mem_offsets {state : PieceCachesState K}
    (owned : SlotsOwned state.offsets state.backends) {offset : FarmerCacheOffset}
    (held : offset ∈ state.offsets) : ∃ backend, state.getBackend offset.cacheIndex = some backend :=
  let ⟨backend, found, _⟩ := owned.inBackend offset held
  ⟨backend, found⟩

theorem mem_offsets_of_mem_keys {state : PieceCachesState K} {key : K}
    (present : key ∈ state.storedPieces.keys) : state.storedPieces.val key ∈ state.offsets :=
  Multiset.mem_add.2 (.inl (BTreeMap.mem_values.2 ⟨key, present, rfl⟩))

/-- A key `should_include_key` accepts is not stored. -/
theorem not_mem_of_shouldIncludeKeyInternal {state : PieceCachesState K} {key : K}
    (included : state.shouldIncludeKeyInternal key = true) : key ∉ state.storedPieces.keys := by
  intro present
  simp [shouldIncludeKeyInternal, present] at included

/-- What `should_replace` does: nothing, or it takes out one stored entry. -/
theorem shouldReplace_cases (state : PieceCachesState K) (key : K) :
    state.shouldReplace key = (none, state) ∨
    ∃ topKey ∈ state.storedPieces.keys, state.shouldReplace key =
      (some (topKey, state.storedPieces.val topKey),
        { state with storedPieces := state.storedPieces.remove topKey }) := by
  unfold shouldReplace
  split_ifs
  · exact .inl rfl
  · rcases state.storedPieces.popLast_cases with popped | ⟨topKey, present, popped⟩
    · left
      rw [popped]
    · exact .inr ⟨topKey, present, by rw [popped]⟩
  · exact .inl rfl

/-- A free slot given to a key not stored: the slot `pop_free_offset` finds, if any, is
stored under the key. -/
theorem slotEffect_pop_push {state : PieceCachesState K} {key : K}
    (owned : SlotsOwned state.offsets state.backends) (fresh : key ∉ state.storedPieces.keys)
    (needsBackend : Bool) :
    SlotEffect state
      (match state.popFreeOffset with
        | (none, state) => state
        | (some offset, state) =>
          if needsBackend then
            match state.getBackend offset.cacheIndex with
            | none => state
            | some _ => (state.pushStoredPiece key offset).2
          else (state.pushStoredPiece key offset).2) := by
  rcases state.popFreeOffset_cases with ⟨offset, rest, dangling, popped⟩ |
    ⟨cacheIndex, backend, found, room, popped⟩ | popped
  · -- a dangling free offset goes from the queue to the key
    have held : offset ∈ state.offsets := by simp [offsets, dangling]
    obtain ⟨backend, named⟩ := getBackend_of_mem_offsets owned held
    have kept : ({ state with danglingFreeOffsets := rest }.pushStoredPiece key offset).2.offsets =
        state.offsets := by
      rw [offsets_pushStoredPiece { state with danglingFreeOffsets := rest } fresh, offsets,
        offsets, dangling, ← Multiset.cons_coe, Multiset.add_cons]
    rw [popped]
    cases needsBackend
    · exact .keep kept rfl
    · dsimp only
      rw [if_pos rfl, getBackend_danglingFreeOffsets, named]
      exact .keep kept rfl
  · have raised : ({ state with backends := (state.backends.set cacheIndex
        { backend with usedCapacity := backend.usedCapacity + 1 }) } :
          PieceCachesState K).getBackend cacheIndex =
        some { backend with usedCapacity := backend.usedCapacity + 1 } := by
      rw [getBackend, List.getElem?_set_self (List.getElem?_eq_some_iff.1 found).1]
    rw [popped]
    cases needsBackend
    · exact .allocate cacheIndex backend found room (offsets_pushStoredPiece _ fresh _) rfl
    · dsimp only
      rw [if_pos rfl, raised]
      exact .allocate cacheIndex backend found room (offsets_pushStoredPiece _ fresh _) rfl
  · rw [popped]
    exact .keep rfl rfl

/-- One store of the initial sync, for a key not yet stored and a write that succeeds. -/
theorem slotEffect_syncStorePiece {state : PieceCachesState K} {key : K}
    (owned : SlotsOwned state.offsets state.backends) (fresh : key ∉ state.storedPieces.keys) :
    SlotEffect state (state.syncStorePiece key true) :=
  slotEffect_pop_push owned fresh false

/-- `persist_piece_in_cache` for a key `should_include_key` accepts and a write that
succeeds. -/
theorem slotEffect_persistPieceInCache {state : PieceCachesState K} {key : K}
    (owned : SlotsOwned state.offsets state.backends)
    (included : state.shouldIncludeKeyInternal key = true) :
    SlotEffect state (state.persistPieceInCache key true) := by
  have fresh := not_mem_of_shouldIncludeKeyInternal included
  unfold persistPieceInCache
  rcases state.shouldReplace_cases key with replaced | ⟨topKey, present, replaced⟩
  · rw [replaced]
    exact slotEffect_pop_push owned fresh true
  · -- the slot of the entry taken out goes to the key
    obtain ⟨backend, named⟩ := getBackend_of_mem_offsets owned (mem_offsets_of_mem_keys present)
    have stillFresh : key ∉ (state.storedPieces.remove topKey).keys := by
      simp only [BTreeMap.keys_remove, Finset.mem_erase]
      exact fun ⟨_, present'⟩ => fresh present'
    rw [replaced]
    dsimp only
    rw [getBackend_storedPieces, named]
    dsimp only
    rw [if_pos rfl]
    refine .keep ?_ rfl
    rw [offsets_pushStoredPiece _ stillFresh, offsets_remove present]

/-- `ForgetKey`: the key's slot, if it has one, moves to the dangling free offsets. -/
theorem slotEffect_forgetKey {state : PieceCachesState K}
    (owned : SlotsOwned state.offsets state.backends) (key : K) :
    SlotEffect state (state.forgetKey key) := by
  unfold forgetKey removeStoredPiece
  by_cases present : key ∈ state.storedPieces.keys
  · obtain ⟨backend, named⟩ := getBackend_of_mem_offsets owned (mem_offsets_of_mem_keys present)
    rw [(BTreeMap.get?_eq_some.2 ⟨present, rfl⟩ : state.storedPieces.get? key = _)]
    dsimp only
    rw [getBackend_storedPieces, named]
    dsimp only
    refine .keep ?_ rfl
    rw [offsets_pushDanglingFreeOffset, offsets_remove present]
  · rw [BTreeMap.get?_eq_none.2 present]
    refine .keep ?_ rfl
    simp only [offsets, BTreeMap.remove, Finset.erase_eq_of_notMem present]

/-- `free_unneeded_stored_pieces` moves slots from stored pieces to dangling free offsets. -/
theorem slotEffect_freeUnneededStoredPieces {PieceIndex : Type} (state : PieceCachesState K)
    (pieceIndicesToStore : BTreeMap K PieceIndex) :
    SlotEffect state (state.freeUnneededStoredPieces pieceIndicesToStore).1 := by
  refine .keep ?_ rfl
  simp only [freeUnneededStoredPieces, offsets]
  rw [← Multiset.coe_add, ← add_assoc, add_right_comm, BTreeMap.values_extractIf]

end PieceCachesState

/-! ## Building the state -/

namespace CacheState

/-- The slots one cache brings into the state: those of its stored pieces and its free offsets
below its high-water mark. -/
def slots (cache : CacheState K) : Multiset FarmerCacheOffset :=
  cache.cacheStoredPieces.values +
    (cache.cacheFreeOffsets.filter (·.pieceOffset < cache.backend.usedCapacity) : List _)

end CacheState

/-- The slots of one cache, read as the cache at `cacheIndex`: none twice, each of this cache
and below its mark, and the mark within the capacity. -/
structure CacheSlots (cacheIndex : ℕ) (cache : CacheState K) : Prop where
  nodup : cache.slots.Nodup
  inCache : ∀ offset ∈ cache.slots, offset.cacheIndex = cacheIndex ∧
    offset.pieceOffset < cache.backend.usedCapacity
  withinCapacity : cache.backend.usedCapacity ≤ cache.backend.totalCapacity

omit [LinearOrder K] in
/-- The slot of an element of the contents of the cache at `cacheIndex`. -/
def contentSlot (cacheIndex : ℕ) (element : ℕ × Option K) : FarmerCacheOffset :=
  ⟨cacheIndex, element.1⟩

omit [LinearOrder K] in
@[simp] theorem contentSlot_cacheIndex (cacheIndex : ℕ) (element : ℕ × Option K) :
    (contentSlot cacheIndex element).cacheIndex = cacheIndex := rfl

omit [LinearOrder K] in
@[simp] theorem contentSlot_pieceOffset (cacheIndex : ℕ) (element : ℕ × Option K) :
    (contentSlot cacheIndex element).pieceOffset = element.1 := rfl

section ReadCache

variable (cacheIndex : ℕ)

theorem cacheFreeOffsets_foldl_readElement :
    ∀ (contents : List (ℕ × Option K)) (cache : CacheState K),
    (contents.foldl (readElement cacheIndex) cache).cacheFreeOffsets = cache.cacheFreeOffsets ++
      (contents.filter (·.2.isNone)).map (contentSlot cacheIndex)
  | [], cache => by simp
  | (pieceOffset, some key) :: contents, cache => by
    rw [List.foldl_cons, cacheFreeOffsets_foldl_readElement contents]
    simp [readElement]
  | (pieceOffset, none) :: contents, cache => by
    rw [List.foldl_cons, cacheFreeOffsets_foldl_readElement contents]
    simp [readElement, contentSlot]

theorem totalCapacity_foldl_readElement :
    ∀ (contents : List (ℕ × Option K)) (cache : CacheState K),
    (contents.foldl (readElement cacheIndex) cache).backend.totalCapacity =
      cache.backend.totalCapacity
  | [], _ => rfl
  | (_, some _) :: contents, _ => totalCapacity_foldl_readElement contents _
  | (_, none) :: contents, _ => totalCapacity_foldl_readElement contents _

/-- The mark is past the last slot that holds a piece. -/
theorem usedCapacity_foldl_readElement :
    ∀ (contents : List (ℕ × Option K)) (cache : CacheState K),
    (contents.foldl (readElement cacheIndex) cache).backend.usedCapacity =
      ((contents.filter (·.2.isSome)).getLast?.map (·.1 + 1)).getD cache.backend.usedCapacity
  | [], _ => rfl
  | (pieceOffset, some key) :: contents, cache => by
    rw [List.foldl_cons, usedCapacity_foldl_readElement contents, List.filter_cons_of_pos rfl,
      List.getLast?_cons]
    cases (contents.filter (·.2.isSome)).getLast? <;> rfl
  | (pieceOffset, none) :: contents, cache => by
    rw [List.foldl_cons, usedCapacity_foldl_readElement contents,
      List.filter_cons_of_neg (by simp)]
    rfl

/-- The stored pieces of a cache take at most one slot each of those that hold a piece. -/
theorem values_foldl_readElement_le : ∀ (contents : List (ℕ × Option K)) (cache : CacheState K),
    (contents.foldl (readElement cacheIndex) cache).cacheStoredPieces.values ≤
      cache.cacheStoredPieces.values +
        ((contents.filter (·.2.isSome)).map (contentSlot cacheIndex) : List _)
  | [], cache => by simp
  | (pieceOffset, some key) :: contents, cache => by
    rw [List.foldl_cons, List.filter_cons_of_pos rfl, List.map_cons, ← Multiset.cons_coe,
      Multiset.add_cons, ← Multiset.cons_add]
    exact (values_foldl_readElement_le contents _).trans
      (add_le_add_left (BTreeMap.values_insert_le _ _ _) _)
  | (pieceOffset, none) :: contents, cache => by
    rw [List.foldl_cons, List.filter_cons_of_neg (by simp)]
    exact values_foldl_readElement_le contents _

/-- With no piece in two slots, the stored pieces take every slot that holds a piece. -/
theorem values_foldl_readElement : ∀ (contents : List (ℕ × Option K)) (cache : CacheState K),
    (contents.filterMap Prod.snd).Nodup →
    (∀ key ∈ contents.filterMap Prod.snd, key ∉ cache.cacheStoredPieces.keys) →
    (contents.foldl (readElement cacheIndex) cache).cacheStoredPieces.values =
      cache.cacheStoredPieces.values +
        ((contents.filter (·.2.isSome)).map (contentSlot cacheIndex) : List _)
  | [], cache, _, _ => by simp
  | (pieceOffset, some key) :: contents, cache, nodup, fresh => by
    simp only [List.filterMap_cons, List.nodup_cons, List.mem_cons,
      forall_eq_or_imp] at nodup fresh
    -- the key is new, and so are the later ones after it is stored
    have fresh' : ∀ key' ∈ contents.filterMap Prod.snd,
        key' ∉ (readElement cacheIndex cache (pieceOffset, some key)).cacheStoredPieces.keys := by
      intro key' member
      simp only [readElement, BTreeMap.keys_insert, Finset.mem_insert, not_or]
      exact ⟨fun same => nodup.1 (same ▸ member), fresh.2 key' member⟩
    rw [List.foldl_cons, values_foldl_readElement contents _ nodup.2 fresh',
      List.filter_cons_of_pos rfl, List.map_cons, ← Multiset.cons_coe, Multiset.add_cons,
      ← Multiset.cons_add]
    simp only [readElement, BTreeMap.values_insert_of_not_mem _ _ fresh.1, contentSlot]
  | (pieceOffset, none) :: contents, cache, nodup, fresh => by
    rw [List.foldl_cons, List.filter_cons_of_neg (by simp)]
    exact values_foldl_readElement contents _ nodup fresh

/-- A cache stores the pieces its contents list, one entry for each. -/
theorem keys_foldl_readElement : ∀ (contents : List (ℕ × Option K)) (cache : CacheState K),
    (contents.foldl (readElement cacheIndex) cache).cacheStoredPieces.keys =
      cache.cacheStoredPieces.keys ∪ (contents.filterMap Prod.snd).toFinset
  | [], cache => by simp
  | (pieceOffset, some key) :: contents, cache => by
    rw [List.foldl_cons, keys_foldl_readElement contents]
    simp [readElement, Finset.insert_union, Finset.union_insert]
  | (pieceOffset, none) :: contents, cache => by
    rw [List.foldl_cons, keys_foldl_readElement contents]
    rfl

end ReadCache

omit [LinearOrder K] in
/-- Splitting the slots below the mark into those that hold a piece, all of them below it, and
the empty ones below it. -/
theorem slots_below_mark (cacheIndex usedCapacity : ℕ) (contents : List (ℕ × Option K))
    (marked : ∀ e ∈ contents, e.2.isSome → e.1 < usedCapacity) :
    (((contents.filter (·.2.isSome)).map (contentSlot cacheIndex) : List FarmerCacheOffset) :
        Multiset FarmerCacheOffset) +
      (((contents.filter (·.2.isNone)).map (contentSlot cacheIndex)).filter
        (·.pieceOffset < usedCapacity) : List FarmerCacheOffset) =
      (((contents.filter (·.1 < usedCapacity)).map (contentSlot cacheIndex) :
        List FarmerCacheOffset) : Multiset FarmerCacheOffset) := by
  have split := List.filter_append_perm (·.2.isSome) (contents.filter (·.1 < usedCapacity))
  have held : (contents.filter (·.1 < usedCapacity)).filter (·.2.isSome) =
      contents.filter (·.2.isSome) := by
    rw [List.filter_filter]
    apply List.filter_congr
    intro e member
    cases holds : e.2.isSome
    · rfl
    · simpa using marked e member holds
  have empty : (contents.filter (·.1 < usedCapacity)).filter (fun e => !e.2.isSome) =
      (contents.filter (·.2.isNone)).filter (·.1 < usedCapacity) := by
    rw [List.filter_filter, List.filter_filter]
    apply List.filter_congr
    intro e _
    cases e.2 <;> simp
  rw [held, empty] at split
  rw [List.filter_map, Multiset.coe_add, ← List.map_append, Multiset.coe_eq_coe]
  exact split.map _

section ReadCache

variable (cacheIndex totalCapacity : ℕ)

theorem totalCapacity_readCache (contents : List (ℕ × Option K)) :
    (readCache cacheIndex totalCapacity contents).backend.totalCapacity = totalCapacity :=
  totalCapacity_foldl_readElement cacheIndex contents _

/-- With the offsets increasing, the mark is past every slot that holds a piece. -/
theorem lt_usedCapacity_readCache {contents : List (ℕ × Option K)}
    (increasing : contents.Pairwise (·.1 < ·.1)) {e : ℕ × Option K} (member : e ∈ contents)
    (holds : e.2.isSome) :
    e.1 < (readCache cacheIndex totalCapacity contents).backend.usedCapacity := by
  have held : e ∈ contents.filter (·.2.isSome) := List.mem_filter.2 ⟨member, holds⟩
  have sorted : (contents.filter (·.2.isSome)).Pairwise (fun a b => a.1 ≤ b.1) :=
    (increasing.filter _).imp Nat.le_of_lt
  rw [readCache, usedCapacity_foldl_readElement,
    List.getLast?_eq_some_getLast (List.ne_nil_of_mem held), Option.map_some, Option.getD_some]
  exact Nat.lt_succ_of_le (sorted.rel_getLast_of_rel_getLast_getLast held le_rfl)

theorem usedCapacity_readCache_le {contents : List (ℕ × Option K)}
    (below : ∀ e ∈ contents, e.1 < totalCapacity) :
    (readCache cacheIndex totalCapacity contents).backend.usedCapacity ≤ totalCapacity := by
  rw [readCache, usedCapacity_foldl_readElement]
  cases last : (contents.filter (·.2.isSome)).getLast? with
  | none => exact Nat.zero_le totalCapacity
  | some e => exact below e (List.mem_filter.1 (List.mem_of_getLast? last)).1

/-- A cache whose contents list its slots in increasing order brings in slots below its mark,
one at most for each; one for each when no piece is in two of them. -/
theorem slots_readCache_le {contents : List (ℕ × Option K)}
    (increasing : contents.Pairwise (·.1 < ·.1)) :
    (readCache cacheIndex totalCapacity contents).slots ≤
      ((contents.filter
          (·.1 < (readCache cacheIndex totalCapacity contents).backend.usedCapacity)).map
        (contentSlot cacheIndex) : List _) := by
  rw [← slots_below_mark cacheIndex _ contents
    fun e member holds => lt_usedCapacity_readCache cacheIndex totalCapacity increasing member holds]
  have stored := values_foldl_readElement_le cacheIndex contents
    ⟨BTreeMap.empty ⟨0, 0⟩, [], CacheBackend.new totalCapacity⟩
  rw [BTreeMap.values_empty, zero_add] at stored
  rw [CacheState.slots, readCache, cacheFreeOffsets_foldl_readElement, List.nil_append]
  exact add_le_add_left stored _

theorem slots_readCache {contents : List (ℕ × Option K)}
    (increasing : contents.Pairwise (·.1 < ·.1)) (nodupKeys : (contents.filterMap Prod.snd).Nodup) :
    (readCache cacheIndex totalCapacity contents).slots =
      ((contents.filter
          (·.1 < (readCache cacheIndex totalCapacity contents).backend.usedCapacity)).map
        (contentSlot cacheIndex) : List _) := by
  rw [← slots_below_mark cacheIndex _ contents
    fun e member holds => lt_usedCapacity_readCache cacheIndex totalCapacity increasing member holds]
  have stored := values_foldl_readElement cacheIndex contents
    ⟨BTreeMap.empty ⟨0, 0⟩, [], CacheBackend.new totalCapacity⟩ nodupKeys (by simp [BTreeMap.empty])
  rw [BTreeMap.values_empty, zero_add] at stored
  rw [CacheState.slots, readCache, cacheFreeOffsets_foldl_readElement, List.nil_append, stored]

end ReadCache

omit [LinearOrder K] in
/-- Offsets below a mark within the capacity are as many as the mark. -/
theorem length_filter_lt_range {totalCapacity usedCapacity : ℕ}
    (within : usedCapacity ≤ totalCapacity) :
    ((List.range totalCapacity).filter (· < usedCapacity)).length = usedCapacity := by
  obtain ⟨rest, rfl⟩ := Nat.exists_eq_add_of_le within
  have low : (List.range usedCapacity).filter (· < usedCapacity) = List.range usedCapacity :=
    List.filter_eq_self.2 fun a member => by simpa using List.mem_range.1 member
  have high : ((List.range rest).map (usedCapacity + ·)).filter (· < usedCapacity) = [] :=
    List.filter_eq_nil_iff.2 fun a member => by
      obtain ⟨b, -, rfl⟩ := List.mem_map.1 member
      simp
  rw [List.range_add, List.filter_append, low, high, List.append_nil, List.length_range]

section Contents

variable {cacheIndex totalCapacity : ℕ} {contents : List (ℕ × Option K)}
  (ranged : contents.map Prod.fst = List.range totalCapacity)
include ranged

omit [LinearOrder K] in
theorem increasing_of_ranged : contents.Pairwise (·.1 < ·.1) :=
  List.pairwise_map.1 (ranged ▸ List.pairwise_lt_range)

omit [LinearOrder K] in
theorem lt_totalCapacity_of_ranged {e : ℕ × Option K} (member : e ∈ contents) :
    e.1 < totalCapacity := by
  have listed : e.1 ∈ contents.map Prod.fst := List.mem_map_of_mem member
  rw [ranged] at listed
  exact List.mem_range.1 listed

omit [LinearOrder K] in
theorem nodup_contentSlots : (contents.map (contentSlot cacheIndex)).Nodup := by
  have slots : contents.map (contentSlot cacheIndex) =
      (List.range totalCapacity).map (FarmerCacheOffset.mk cacheIndex) := by
    rw [← ranged, List.map_map]
    rfl
  rw [slots]
  exact List.nodup_range.map fun a b same => (FarmerCacheOffset.mk.inj same).2

/-- A cache whose contents list each of its offsets once, in order, brings in distinct slots of
its own below its mark. -/
theorem cacheSlots_readCache :
    CacheSlots cacheIndex (readCache cacheIndex totalCapacity contents) := by
  have within := slots_readCache_le cacheIndex totalCapacity (increasing_of_ranged ranged)
  refine ⟨Multiset.nodup_of_le within (Multiset.coe_nodup.2
    ((List.filter_sublist.map _).nodup (nodup_contentSlots ranged))), fun offset held => ?_, ?_⟩
  · obtain ⟨e, member, rfl⟩ := List.mem_map.1 (Multiset.mem_coe.1 (Multiset.mem_of_le within held))
    exact ⟨rfl, of_decide_eq_true (List.mem_filter.1 member).2⟩
  · rw [totalCapacity_readCache]
    exact usedCapacity_readCache_le cacheIndex totalCapacity
      fun e member => lt_totalCapacity_of_ranged ranged member

/-- The contents below a cache's mark are as many as the mark. -/
theorem length_filter_lt_usedCapacity :
    (contents.filter
        (·.1 < (readCache cacheIndex totalCapacity contents).backend.usedCapacity)).length =
      (readCache cacheIndex totalCapacity contents).backend.usedCapacity := by
  have offsets : ∀ used, (contents.filter (·.1 < used)).length =
      ((List.range totalCapacity).filter (· < used)).length := by
    intro used
    rw [← ranged, List.filter_map, List.length_map]
    rfl
  rw [offsets]
  exact length_filter_lt_range (usedCapacity_readCache_le cacheIndex totalCapacity
    fun e member => lt_totalCapacity_of_ranged ranged member)

/-- With no piece in two of its slots, a cache brings in as many slots as its mark. -/
theorem card_slots_readCache (nodupKeys : (contents.filterMap Prod.snd).Nodup) :
    Multiset.card (readCache cacheIndex totalCapacity contents).slots =
      (readCache cacheIndex totalCapacity contents).backend.usedCapacity := by
  rw [slots_readCache cacheIndex totalCapacity (increasing_of_ranged ranged) nodupKeys,
    Multiset.coe_card, List.length_map, length_filter_lt_usedCapacity ranged]

/-- A cache brings in at most as many slots as its mark. -/
theorem card_slots_readCache_le :
    Multiset.card (readCache cacheIndex totalCapacity contents).slots ≤
      (readCache cacheIndex totalCapacity contents).backend.usedCapacity := by
  have within := Multiset.card_le_card
    (slots_readCache_le cacheIndex totalCapacity (increasing_of_ranged ranged))
  rwa [Multiset.coe_card, List.length_map, length_filter_lt_usedCapacity ranged] at within

/-- With a piece in two of its slots, a cache brings in fewer slots than its mark: its map of
stored pieces holds one slot for each piece, and the other slot of the piece is not free. -/
theorem card_slots_readCache_lt (duplicate : ¬(contents.filterMap Prod.snd).Nodup) :
    Multiset.card (readCache cacheIndex totalCapacity contents).slots <
      (readCache cacheIndex totalCapacity contents).backend.usedCapacity := by
  have marked : ∀ e ∈ contents, e.2.isSome →
      e.1 < (readCache cacheIndex totalCapacity contents).backend.usedCapacity :=
    fun e member holds =>
      lt_usedCapacity_readCache cacheIndex totalCapacity (increasing_of_ranged ranged) member holds
  -- the slots below the mark: those that hold a piece, then the free ones
  have below := congrArg Multiset.card (slots_below_mark cacheIndex _ contents marked)
  rw [Multiset.card_add, Multiset.coe_card, Multiset.coe_card, Multiset.coe_card, List.length_map,
    List.length_map, length_filter_lt_usedCapacity ranged] at below
  -- the stored pieces: one slot for each key
  have keys : (readCache cacheIndex totalCapacity contents).cacheStoredPieces.keys =
      (contents.filterMap Prod.snd).toFinset := by
    rw [readCache, keys_foldl_readElement]
    simp [BTreeMap.empty]
  have listed : (contents.filterMap Prod.snd).length = (contents.filter (·.2.isSome)).length := by
    rw [List.length_filterMap_eq_countP, List.countP_eq_length_filter]
  have fewer : (contents.filterMap Prod.snd).toFinset.card < (contents.filterMap Prod.snd).length := by
    refine lt_of_le_of_ne (List.toFinset_card_le _) fun same => duplicate ?_
    have nodup : ((contents.filterMap Prod.snd : List K) : Multiset K).Nodup :=
      Multiset.toFinset_card_eq_card_iff_nodup.1 (by simpa using same)
    exact Multiset.coe_nodup.1 nodup
  rw [CacheState.slots, Multiset.card_add, BTreeMap.card_values, keys, Multiset.coe_card, readCache,
    cacheFreeOffsets_foldl_readElement, List.nil_append]
  rw [readCache] at below
  omega

end Contents

/-- A stored piece merged in: its slot joins the slots held, and a slot the key had moves to the
dangling free offsets. -/
theorem values_mergeStoredPiece (state : BTreeMap K FarmerCacheOffset × List FarmerCacheOffset)
    (entry : K × FarmerCacheOffset) :
    (mergeStoredPiece state entry).1.values + (mergeStoredPiece state entry).2 =
      entry.2 ::ₘ (state.1.values + state.2) := by
  unfold mergeStoredPiece
  by_cases present : entry.1 ∈ state.1.keys
  · rw [BTreeMap.get?_eq_some.2 ⟨present, rfl⟩]
    dsimp only
    rw [← Multiset.cons_coe, Multiset.add_cons, ← Multiset.cons_add,
      BTreeMap.values_insert_of_mem _ _ present, Multiset.cons_add]
  · rw [BTreeMap.get?_eq_none.2 present]
    dsimp only
    rw [BTreeMap.values_insert_of_not_mem _ _ present, Multiset.cons_add]

theorem values_foldl_mergeStoredPiece : ∀ (entries : List (K × FarmerCacheOffset))
    (state : BTreeMap K FarmerCacheOffset × List FarmerCacheOffset),
    (entries.foldl mergeStoredPiece state).1.values + (entries.foldl mergeStoredPiece state).2 =
      state.1.values + state.2 + (entries.map Prod.snd : List _)
  | [], state => by simp
  | entry :: entries, state => by
    rw [List.foldl_cons, values_foldl_mergeStoredPiece entries, values_mergeStoredPiece,
      List.map_cons, ← Multiset.cons_coe, Multiset.add_cons, Multiset.cons_add]

namespace PieceCachesState

@[simp] theorem card_offsets (state : PieceCachesState K) :
    Multiset.card state.offsets = state.storedPieces.keys.card + state.danglingFreeOffsets.length := by
  simp [offsets]

/-- Merging a cache adds its slots to those held. -/
theorem offsets_mergeCacheState (state : PieceCachesState K) (cache : CacheState K) :
    (mergeCacheState state cache).offsets = state.offsets + cache.slots := by
  have merged := values_foldl_mergeStoredPiece cache.cacheStoredPieces.entries
    (state.storedPieces, state.danglingFreeOffsets)
  unfold mergeCacheState
  generalize cache.cacheStoredPieces.entries.foldl mergeStoredPiece
    (state.storedPieces, state.danglingFreeOffsets) = result at merged ⊢
  obtain ⟨storedPieces, danglingFreeOffsets⟩ := result
  simp only [offsets, CacheState.slots] at merged ⊢
  rw [← Multiset.coe_add, ← add_assoc, merged, BTreeMap.coe_map_snd_entries, add_assoc]

theorem backends_mergeCacheState (state : PieceCachesState K) (cache : CacheState K) :
    (mergeCacheState state cache).backends = state.backends ++ [cache.backend] := rfl

end PieceCachesState

open PieceCachesState

/-- A cache merged in as the next backend keeps the slots owned. -/
theorem SlotsOwned.mergeCacheState {state : PieceCachesState K} {cache : CacheState K}
    (owned : SlotsOwned state.offsets state.backends)
    (slots : CacheSlots state.backends.length cache) :
    SlotsOwned (mergeCacheState state cache).offsets (mergeCacheState state cache).backends := by
  rw [offsets_mergeCacheState, backends_mergeCacheState]
  -- the slots held before name the backends before, the new ones the new backend
  have earlier : ∀ offset ∈ state.offsets, offset.cacheIndex < state.backends.length :=
    fun offset held =>
      let ⟨_, found, _⟩ := owned.inBackend offset held
      (List.getElem?_eq_some_iff.1 found).1
  refine ⟨Multiset.nodup_add.2 ⟨owned.nodup, slots.nodup, ?_⟩, fun offset held => ?_,
    fun backend member => ?_⟩
  · refine Multiset.disjoint_left.2 fun {offset} held held' => ?_
    exact Nat.lt_irrefl _ ((slots.inCache offset held').1 ▸ earlier offset held)
  · rcases Multiset.mem_add.1 held with old | new
    · obtain ⟨backend, found, below⟩ := owned.inBackend offset old
      exact ⟨backend, by rw [List.getElem?_append_left (earlier offset old)]; exact found, below⟩
    · obtain ⟨index, below⟩ := slots.inCache offset new
      refine ⟨cache.backend, ?_, below⟩
      rw [index, List.getElem?_append_right le_rfl, Nat.sub_self]
      rfl
  · rcases List.mem_append.1 member with old | new
    · exact owned.withinCapacity backend old
    · rw [List.mem_singleton.1 new]
      exact slots.withinCapacity

/-- A cache that brings in as many slots as its mark keeps the slots counted. -/
theorem SlotsCounted.mergeCacheState {state : PieceCachesState K} {cache : CacheState K}
    (counted : SlotsCounted state.offsets state.backends)
    (card : Multiset.card cache.slots = cache.backend.usedCapacity) :
    SlotsCounted (mergeCacheState state cache).offsets (mergeCacheState state cache).backends := by
  unfold SlotsCounted at counted ⊢
  rw [offsets_mergeCacheState, backends_mergeCacheState, Multiset.card_add, counted, card,
    List.map_append, List.sum_append, List.map_singleton, List.sum_singleton]

/-- Caches merged one after another add their slots to those held and their marks to the
marks. -/
theorem card_offsets_foldl_mergeCacheState : ∀ (caches : List (CacheState K))
    (state : PieceCachesState K),
    Multiset.card (caches.foldl mergeCacheState state).offsets =
        Multiset.card state.offsets + (caches.map fun cache => Multiset.card cache.slots).sum ∧
      ((caches.foldl mergeCacheState state).backends.map (·.usedCapacity)).sum =
        (state.backends.map (·.usedCapacity)).sum + (caches.map (·.backend.usedCapacity)).sum
  | [], state => by simp
  | cache :: caches, state => by
    obtain ⟨offsets, marks⟩ := card_offsets_foldl_mergeCacheState caches (mergeCacheState state cache)
    rw [List.foldl_cons, offsets, marks, offsets_mergeCacheState, backends_mergeCacheState]
    simp only [Multiset.card_add, List.map_append, List.sum_append, List.map_cons, List.sum_cons,
      List.map_nil, List.sum_nil]
    omega

omit [LinearOrder K] in
/-- The caches whose index fits `CacheIndex` are the first ones. -/
theorem filter_zipIdx_lt {α : Type} (bound : ℕ) : ∀ (l : List α) (start : ℕ),
    (l.zipIdx start).filter (·.2 < bound) = (l.take (bound - start)).zipIdx start
  | [], _ => by simp
  | a :: l, start => by
    rw [List.zipIdx_cons, List.filter_cons]
    by_cases fits : start < bound
    · obtain ⟨rest, left⟩ : ∃ rest, bound - start = rest + 1 := ⟨bound - start - 1, by omega⟩
      rw [if_pos (decide_eq_true fits), filter_zipIdx_lt bound l (start + 1), left,
        List.take_succ_cons, List.zipIdx_cons, show bound - (start + 1) = rest by omega]
    · -- every later index is past the bound too
      rw [if_neg (by simpa using fits), Nat.sub_eq_zero_of_le (by omega), List.take_zero,
        List.zipIdx_nil, List.filter_eq_nil_iff]
      rintro ⟨x, i⟩ member
      have later := (List.mem_zipIdx member).1
      simp only [decide_eq_true_eq]
      omega

/-- Caches merged one after another, each read as the cache at the index its backend gets, keep
the slots owned, and counted where none holds a piece in two slots. -/
theorem slots_foldl_mergeCacheState : ∀ (caches : List ((ℕ × List (ℕ × Option K)) × ℕ))
    (state : PieceCachesState K),
    caches.map Prod.snd = List.range' state.backends.length caches.length →
    (∀ cache ∈ caches, cache.1.2.map Prod.fst = List.range cache.1.1) →
    SlotsOwned state.offsets state.backends →
    SlotsOwned ((caches.map fun cache => readCache cache.2 cache.1.1 cache.1.2).foldl
        mergeCacheState state).offsets
      ((caches.map fun cache => readCache cache.2 cache.1.1 cache.1.2).foldl
        mergeCacheState state).backends ∧
    (SlotsCounted state.offsets state.backends →
      (∀ cache ∈ caches, (cache.1.2.filterMap Prod.snd).Nodup) →
      SlotsCounted ((caches.map fun cache => readCache cache.2 cache.1.1 cache.1.2).foldl
          mergeCacheState state).offsets
        ((caches.map fun cache => readCache cache.2 cache.1.1 cache.1.2).foldl
          mergeCacheState state).backends)
  | [], _, _, _, owned => ⟨owned, fun counted _ => counted⟩
  | cache :: caches, state, indexed, ranged, owned => by
    rw [List.map_cons, List.length_cons, List.range'_succ, List.cons.injEq] at indexed
    obtain ⟨first, rest⟩ := indexed
    have contents := ranged cache List.mem_cons_self
    have read : CacheSlots state.backends.length (readCache cache.2 cache.1.1 cache.1.2) := by
      rw [← first]
      exact cacheSlots_readCache contents
    have rest' : caches.map Prod.snd =
        List.range' (mergeCacheState state (readCache cache.2 cache.1.1 cache.1.2)).backends.length
          caches.length := by
      rw [backends_mergeCacheState, List.length_append, List.length_singleton]
      exact rest
    obtain ⟨owned', counted'⟩ := slots_foldl_mergeCacheState caches _ rest'
      (fun c member => ranged c (List.mem_cons_of_mem _ member)) (owned.mergeCacheState read)
    refine ⟨owned', fun counted nodupKeys => counted' ?_ fun c member =>
      nodupKeys c (List.mem_cons_of_mem _ member)⟩
    exact counted.mergeCacheState (card_slots_readCache contents (nodupKeys cache List.mem_cons_self))

omit [LinearOrder K] in
/-- The caches `initialize` reads are caches it is given. -/
theorem mem_of_mem_filter_zipIdx {α : Type} {caches : List α} {cache : α × ℕ}
    (member : cache ∈ caches.zipIdx.filter (·.2 < cacheIndexLimit)) : cache.1 ∈ caches := by
  have named : cache.1 ∈ caches.zipIdx.map Prod.fst :=
    List.mem_map_of_mem (List.mem_filter.1 member).1
  rwa [List.zipIdx_map_fst] at named

/-- The state `initialize` merges the caches into holds no slot. -/
theorem offsets_initial : (⟨BTreeMap.empty ⟨0, 0⟩, [], []⟩ : PieceCachesState K).offsets = 0 := rfl

/-- `initialize` leaves every slot it reads with one holder at most, and with exactly one where
no cache holds a piece in two slots. -/
theorem slots_initializePieceCaches {newPieceCaches : List (ℕ × List (ℕ × Option K))}
    (contents : ∀ cache ∈ newPieceCaches, cache.2.map Prod.fst = List.range cache.1) :
    SlotsOwned (initializePieceCaches newPieceCaches).offsets
        (initializePieceCaches newPieceCaches).backends ∧
      ((∀ cache ∈ newPieceCaches, (cache.2.filterMap Prod.snd).Nodup) →
        SlotsCounted (initializePieceCaches newPieceCaches).offsets
          (initializePieceCaches newPieceCaches).backends) := by
  have listed : ∀ cache ∈ newPieceCaches.zipIdx.filter (·.2 < cacheIndexLimit),
      cache.1 ∈ newPieceCaches := fun _ member => mem_of_mem_filter_zipIdx member
  have indexed : (newPieceCaches.zipIdx.filter (·.2 < cacheIndexLimit)).map Prod.snd =
      List.range' 0 (newPieceCaches.zipIdx.filter (·.2 < cacheIndexLimit)).length := by
    rw [filter_zipIdx_lt, List.zipIdx_map_snd, List.length_zipIdx]
  obtain ⟨owned, counted⟩ := slots_foldl_mergeCacheState _ ⟨BTreeMap.empty ⟨0, 0⟩, [], []⟩ indexed
    (fun cache member => contents cache.1 (listed cache member))
    ⟨by simp [offsets_initial], by simp [offsets_initial], by simp⟩
  exact ⟨owned, fun nodupKeys => counted (by simp [SlotsCounted, offsets_initial])
    fun cache member => nodupKeys cache.1 (listed cache member)⟩

/-- A cache read by `initialize` that holds a piece in two slots leaves it holding fewer slots
than the marks add up to; every other cache brings in at most its mark. -/
theorem slots_lost_initializePieceCaches {newPieceCaches : List (ℕ × List (ℕ × Option K))}
    (contents : ∀ cache ∈ newPieceCaches, cache.2.map Prod.fst = List.range cache.1)
    (duplicate : ∃ cache ∈ newPieceCaches.take cacheIndexLimit,
      ¬(cache.2.filterMap Prod.snd).Nodup) :
    Multiset.card (initializePieceCaches newPieceCaches).offsets <
      ((initializePieceCaches newPieceCaches).backends.map (·.usedCapacity)).sum := by
  obtain ⟨offsets, marks⟩ := card_offsets_foldl_mergeCacheState
    ((newPieceCaches.zipIdx.filter (·.2 < cacheIndexLimit)).map fun cache =>
      readCache cache.2 cache.1.1 cache.1.2) ⟨BTreeMap.empty ⟨0, 0⟩, [], []⟩
  unfold initializePieceCaches
  rw [offsets, marks]
  simp only [List.map_map]
  rw [offsets_initial, Multiset.card_zero, Nat.zero_add, List.map_nil, List.sum_nil, Nat.zero_add]
  apply List.sum_lt_sum
  · intro cache member
    exact card_slots_readCache_le (contents cache.1 (mem_of_mem_filter_zipIdx member))
  · -- the cache with the piece in two slots is read, at its index
    obtain ⟨cache, first, twice⟩ := duplicate
    obtain ⟨i, found⟩ := List.getElem?_of_mem first
    have member : (cache, i) ∈ newPieceCaches.zipIdx.filter (·.2 < cacheIndexLimit) := by
      rw [filter_zipIdx_lt, Nat.sub_zero]
      exact List.mem_zipIdx_iff_getElem?.2 found
    exact ⟨(cache, i), member,
      card_slots_readCache_lt (contents cache (mem_of_mem_filter_zipIdx member)) twice⟩

/-! ## Runs of the worker -/

/-- The worker operations the state goes through when every write succeeds. -/
inductive Step : PieceCachesState K → PieceCachesState K → Prop
  | syncStorePiece (state : PieceCachesState K) (key : K) :
      key ∉ state.storedPieces.keys → Step state (state.syncStorePiece key true)
  | persistPieceInCache (state : PieceCachesState K) (key : K) :
      state.shouldIncludeKeyInternal key = true → Step state (state.persistPieceInCache key true)
  | forgetKey (state : PieceCachesState K) (key : K) : Step state (state.forgetKey key)
  | freeUnneededStoredPieces {PieceIndex : Type} (state : PieceCachesState K)
      (pieceIndicesToStore : BTreeMap K PieceIndex) :
      Step state (state.freeUnneededStoredPieces pieceIndicesToStore).1

theorem Step.slotEffect {state state' : PieceCachesState K} (step : Step state state')
    (owned : SlotsOwned state.offsets state.backends) : SlotEffect state state' := by
  cases step with
  | syncStorePiece _ key fresh => exact slotEffect_syncStorePiece owned fresh
  | persistPieceInCache _ key included => exact slotEffect_persistPieceInCache owned included
  | forgetKey _ key => exact slotEffect_forgetKey owned key
  | freeUnneededStoredPieces _ pieceIndicesToStore =>
    exact slotEffect_freeUnneededStoredPieces state pieceIndicesToStore

/-- An operation raises the slots held and the marks by the same amount. -/
theorem SlotEffect.card_add_sum {state state' : PieceCachesState K}
    (effect : SlotEffect state state') :
    Multiset.card state'.offsets + (state.backends.map (·.usedCapacity)).sum =
      Multiset.card state.offsets + (state'.backends.map (·.usedCapacity)).sum := by
  cases effect with
  | keep offsets backends => rw [offsets, backends]
  | allocate cacheIndex backend found room offsets backends =>
    rw [offsets, backends, Multiset.card_cons, sum_map_usedCapacity_set _ found]
    omega

/-- Along a run of the worker the slots stay owned, and counted once they are at the start. -/
theorem slots_of_run {start state : PieceCachesState K}
    (run : Relation.ReflTransGen Step start state)
    (owned : SlotsOwned start.offsets start.backends) :
    SlotsOwned state.offsets state.backends ∧
      (SlotsCounted start.offsets start.backends → SlotsCounted state.offsets state.backends) := by
  induction run with
  | refl => exact ⟨owned, id⟩
  | tail _ step reached =>
    have effect := step.slotEffect reached.1
    exact ⟨effect.owned reached.1, fun counted => effect.counted (reached.2 counted)⟩

/-- Along a run of the worker the slots held and the marks rise together: a slot lost at the
start is never made up for. -/
theorem card_add_sum_of_run {start state : PieceCachesState K}
    (run : Relation.ReflTransGen Step start state)
    (owned : SlotsOwned start.offsets start.backends) :
    Multiset.card state.offsets + (start.backends.map (·.usedCapacity)).sum =
      Multiset.card start.offsets + (state.backends.map (·.usedCapacity)).sum := by
  induction run with
  | refl => rfl
  | tail before step kept =>
    have effect := (step.slotEffect (slots_of_run before owned).1).card_add_sum
    omega

/-- No slot is given to two pieces: from the state `initialize` builds, along any failure-free
run of the worker, the slots held are distinct and below the marks of their backends, and,
where no cache holds a piece in two slots, the stored pieces and dangling free offsets are as
many as the marks add up to. -/
theorem piece_cache_slots_never_shared {newPieceCaches : List (ℕ × List (ℕ × Option K))}
    (contents : ∀ cache ∈ newPieceCaches, cache.2.map Prod.fst = List.range cache.1)
    {state : PieceCachesState K}
    (run : Relation.ReflTransGen Step (initializePieceCaches newPieceCaches) state) :
    SlotsOwned state.offsets state.backends ∧
      ((∀ cache ∈ newPieceCaches, (cache.2.filterMap Prod.snd).Nodup) →
        state.storedPieces.keys.card + state.danglingFreeOffsets.length =
          (state.backends.map (·.usedCapacity)).sum) := by
  obtain ⟨owned, counted⟩ := slots_initializePieceCaches contents
  obtain ⟨owned', counted'⟩ := slots_of_run run owned
  refine ⟨owned', fun nodupKeys => ?_⟩
  rw [← card_offsets]
  exact counted' (counted nodupKeys)

/-- A full cache of two slots, then each kind of operation: `persist_piece_in_cache` of a key
below the greatest stored one takes that key's slot (`should_replace`), `ForgetKey` makes a slot
dangling, a store of the initial sync takes it again, and `free_unneeded_stored_pieces` frees
the piece not to be stored. -/
example :
    let newPieceCaches : List (ℕ × List (ℕ × Option ℕ)) := [(2, [(0, some 3), (1, some 5)])]
    let replaced := (initializePieceCaches newPieceCaches).persistPieceInCache 4 true
    let stored := (replaced.forgetKey 3).syncStorePiece 6 true
    let state := (stored.freeUnneededStoredPieces (⟨{6}, fun _ => ()⟩ : BTreeMap ℕ Unit)).1
    SlotsOwned state.offsets state.backends ∧
      state.storedPieces.keys.card + state.danglingFreeOffsets.length =
        (state.backends.map (·.usedCapacity)).sum := by
  intro newPieceCaches replaced stored state
  have contents : ∀ cache ∈ newPieceCaches, cache.2.map Prod.fst = List.range cache.1 := by
    decide
  have run : Relation.ReflTransGen Step (initializePieceCaches newPieceCaches) state :=
    .tail (.tail (.tail (.single (.persistPieceInCache _ 4 (by decide))) (.forgetKey _ 3))
      (.syncStorePiece _ 6 (by decide))) (.freeUnneededStoredPieces _ _)
  obtain ⟨owned, counted⟩ := piece_cache_slots_never_shared contents run
  exact ⟨owned, counted (by decide)⟩

/-- A cache whose contents list one piece in two of its slots makes `initialize` lose a slot:
the map of the cache's stored pieces keeps one of the two, the other is neither stored nor
dangling, and along any failure-free run of the worker the slots held stay fewer than the
marks add up to. -/
theorem piece_cache_slot_lost_on_duplicate {newPieceCaches : List (ℕ × List (ℕ × Option K))}
    (contents : ∀ cache ∈ newPieceCaches, cache.2.map Prod.fst = List.range cache.1)
    (duplicate : ∃ cache ∈ newPieceCaches.take cacheIndexLimit,
      ¬(cache.2.filterMap Prod.snd).Nodup)
    {state : PieceCachesState K}
    (run : Relation.ReflTransGen Step (initializePieceCaches newPieceCaches) state) :
    state.storedPieces.keys.card + state.danglingFreeOffsets.length <
      (state.backends.map (·.usedCapacity)).sum := by
  obtain ⟨owned, -⟩ := slots_initializePieceCaches contents
  have lost := slots_lost_initializePieceCaches contents duplicate
  have kept := card_add_sum_of_run run owned
  rw [← card_offsets]
  omega

/-- One cache of two slots that holds piece `7` in both, as after piece `7` was forgotten,
stored again into another slot, and the farmer restarted; then `7` is forgotten once more. One
slot is held, while the mark is two. -/
theorem piece_cache_slot_lost_on_duplicate_forget :
    let newPieceCaches : List (ℕ × List (ℕ × Option ℕ)) := [(2, [(0, some 7), (1, some 7)])]
    let state := (initializePieceCaches newPieceCaches).forgetKey 7
    (∀ cache ∈ newPieceCaches, cache.2.map Prod.fst = List.range cache.1) ∧
    (∃ cache ∈ newPieceCaches.take cacheIndexLimit, ¬(cache.2.filterMap Prod.snd).Nodup) ∧
    Relation.ReflTransGen Step (initializePieceCaches newPieceCaches) state ∧
    state.storedPieces.keys.card + state.danglingFreeOffsets.length = 1 ∧
    (state.backends.map (·.usedCapacity)).sum = 2 ∧
    state.storedPieces.keys.card + state.danglingFreeOffsets.length <
      (state.backends.map (·.usedCapacity)).sum := by
  intro newPieceCaches state
  have contents : ∀ cache ∈ newPieceCaches, cache.2.map Prod.fst = List.range cache.1 := by
    decide
  have duplicate : ∃ cache ∈ newPieceCaches.take cacheIndexLimit,
      ¬(cache.2.filterMap Prod.snd).Nodup := by
    decide
  have run : Relation.ReflTransGen Step (initializePieceCaches newPieceCaches) state :=
    .single (.forgetKey _ 7)
  exact ⟨contents, duplicate, run, by decide, by decide,
    piece_cache_slot_lost_on_duplicate contents duplicate run⟩

end Subspace.Farmer
