import Subspace.Lib.BTree

/-!
# The farmer's piece cache

The farmer keeps pieces in the caches of its farms (`subspace-farmer/src/farmer_cache.rs` and
`farmer_cache/piece_cache_state.rs`). `PieceCachesState` says which slot of which cache holds
which piece: `stored_pieces` maps the key of each cached piece to its slot, a slot freed while
the farmer runs waits in `dangling_free_offsets`, and each backend hands out the slots above its
high-water mark `used_capacity` one by one.

This module models the state with its operations, `FarmerCacheWorker::initialize` as far as it
builds the state from the contents of the caches, and the worker operations that change it
later: one store of the initial sync, `persist_piece_in_cache`, `ForgetKey` and
`free_unneeded_stored_pieces`. A key is any linearly ordered type, standing for
`KeyWithDistance`; a cache's contents are its slots with the key of the piece each holds.
Writes of pieces succeed or fail as the caller says.
-/

namespace Subspace.Farmer

/-- `CacheIndex::try_from` accepts the positions of a `u8`. -/
def cacheIndexLimit : ℕ := 2 ^ 8

/-- `FarmerCacheOffset`: a slot of one cache. -/
structure FarmerCacheOffset where
  cacheIndex : ℕ
  pieceOffset : ℕ
deriving DecidableEq, Repr

/-- `CacheBackend`, without the cache it wraps. -/
structure CacheBackend where
  usedCapacity : ℕ
  totalCapacity : ℕ
deriving DecidableEq, Repr

/-- `CacheBackend::new`. -/
def CacheBackend.new (totalCapacity : ℕ) : CacheBackend := ⟨0, totalCapacity⟩

/-- `CacheBackend::next_free`: the slot at the high-water mark, which moves up by one. -/
def CacheBackend.nextFree (backend : CacheBackend) : Option ℕ × CacheBackend :=
  if backend.usedCapacity < backend.totalCapacity then
    (some backend.usedCapacity, { backend with usedCapacity := backend.usedCapacity + 1 })
  else (none, backend)

/-- `CacheBackend::free_size`. -/
def CacheBackend.freeSize (backend : CacheBackend) : ℕ :=
  backend.totalCapacity - backend.usedCapacity

/-- `PieceCachesState`. -/
structure PieceCachesState (K : Type) [LinearOrder K] where
  storedPieces : BTreeMap K FarmerCacheOffset
  danglingFreeOffsets : List FarmerCacheOffset
  backends : List CacheBackend

namespace PieceCachesState

variable {K : Type} [LinearOrder K]

/-- The backends by how many free slots they have, most first, with their indices: the
`sort_unstable_by_key` on `free_size` and the `rev` of `pop_free_offset`, with backends of
equal free size in the order a stable sort leaves them. -/
def sortedBackends (state : PieceCachesState K) : List (CacheBackend × ℕ) :=
  ((state.backends.zipIdx.filter (·.2 < cacheIndexLimit)).mergeSort
    fun a b => a.1.freeSize ≤ b.1.freeSize).reverse

/-- `pop_free_offset`: a dangling free offset if there is one, else the next free slot of the
first backend in that order that has one. -/
def popFreeOffset (state : PieceCachesState K) : Option FarmerCacheOffset × PieceCachesState K :=
  match state.danglingFreeOffsets with
  | freeOffset :: rest => (some freeOffset, { state with danglingFreeOffsets := rest })
  | [] =>
    match state.sortedBackends.find?
        fun entry => entry.1.usedCapacity < entry.1.totalCapacity with
    | some (backend, cacheIndex) =>
      (some ⟨cacheIndex, backend.usedCapacity⟩,
        { state with backends := state.backends.set cacheIndex backend.nextFree.2 })
    | none => (none, state)

/-- `push_stored_piece`: `insert`, which returns the slot the key had. -/
def pushStoredPiece (state : PieceCachesState K) (key : K) (cacheOffset : FarmerCacheOffset) :
    Option FarmerCacheOffset × PieceCachesState K :=
  (state.storedPieces.get? key,
    { state with storedPieces := state.storedPieces.insert key cacheOffset })

/-- `remove_stored_piece`. -/
def removeStoredPiece (state : PieceCachesState K) (key : K) :
    Option FarmerCacheOffset × PieceCachesState K :=
  (state.storedPieces.get? key, { state with storedPieces := state.storedPieces.remove key })

/-- `push_dangling_free_offset`. -/
def pushDanglingFreeOffset (state : PieceCachesState K) (offset : FarmerCacheOffset) :
    PieceCachesState K :=
  { state with danglingFreeOffsets := state.danglingFreeOffsets ++ [offset] }

/-- `get_backend`. -/
def getBackend (state : PieceCachesState K) (cacheIndex : ℕ) : Option CacheBackend :=
  state.backends[cacheIndex]?

/-- `has_free_capacity`. -/
def hasFreeCapacity (state : PieceCachesState K) : Bool :=
  !state.danglingFreeOffsets.isEmpty || state.backends.any fun backend => 0 < backend.freeSize

/-- `should_include_key_internal`: a key not yet stored goes in while there is room, and
otherwise only in front of the greatest stored key. -/
def shouldIncludeKeyInternal (state : PieceCachesState K) (key : K) : Bool :=
  if key ∈ state.storedPieces.keys then false
  else if state.hasFreeCapacity then true
  else
    match state.storedPieces.lastKeyValue with
    | some (topKey, _) => key < topKey
    | none => false

/-- `should_replace`: with no room left, the entry of the greatest key is taken out, to give
its slot to the key. -/
def shouldReplace (state : PieceCachesState K) (key : K) :
    Option (K × FarmerCacheOffset) × PieceCachesState K :=
  if !state.shouldIncludeKeyInternal key then (none, state)
  else if !state.hasFreeCapacity then
    let (last, storedPieces) := state.storedPieces.popLast
    (last, { state with storedPieces })
  else (none, state)

/-- `free_unneeded_stored_pieces`: the stored pieces whose key is not to be stored are taken
out, in key order, their slots made dangling; the keys left to store are those not stored. The
closure removes each key it is given from the keys to store, and each stored key comes once, so
a key is taken out exactly when it was not among the keys to store. -/
def freeUnneededStoredPieces {PieceIndex : Type} (state : PieceCachesState K)
    (pieceIndicesToStore : BTreeMap K PieceIndex) :
    PieceCachesState K × BTreeMap K PieceIndex :=
  let (storedPieces, extracted) :=
    state.storedPieces.extractIf fun key => key ∉ pieceIndicesToStore.keys
  ({ state with
      storedPieces
      danglingFreeOffsets := state.danglingFreeOffsets ++ extracted.map Prod.snd },
    ⟨pieceIndicesToStore.keys \ state.storedPieces.keys, pieceIndicesToStore.val⟩)

end PieceCachesState

/-! ## Building the state from the caches -/

/-- `CacheState`: what reading the contents of one cache gives. -/
structure CacheState (K : Type) where
  cacheStoredPieces : BTreeMap K FarmerCacheOffset
  cacheFreeOffsets : List FarmerCacheOffset
  backend : CacheBackend

variable {K : Type} [LinearOrder K]

/-- One element of `contents()`: a slot that holds a piece raises the high-water mark past it
and is stored under the piece's key, an empty slot is a free offset. -/
def readElement (cacheIndex : ℕ) (state : CacheState K) :
    ℕ × Option K → CacheState K
  | (pieceOffset, some key) =>
    { state with
      cacheStoredPieces := state.cacheStoredPieces.insert key ⟨cacheIndex, pieceOffset⟩
      backend := { state.backend with usedCapacity := pieceOffset + 1 } }
  | (pieceOffset, none) =>
    { state with cacheFreeOffsets := state.cacheFreeOffsets ++ [⟨cacheIndex, pieceOffset⟩] }

/-- The `init_fut` of one cache: its contents read into a fresh backend. -/
def readCache (cacheIndex totalCapacity : ℕ) (contents : List (ℕ × Option K)) : CacheState K :=
  contents.foldl (readElement cacheIndex)
    ⟨BTreeMap.empty ⟨0, 0⟩, [], CacheBackend.new totalCapacity⟩

/-- One stored piece of a cache goes into the state; a key another cache already stores gives
the other slot up to the front of the dangling free offsets. -/
def mergeStoredPiece (state : BTreeMap K FarmerCacheOffset × List FarmerCacheOffset)
    (entry : K × FarmerCacheOffset) : BTreeMap K FarmerCacheOffset × List FarmerCacheOffset :=
  match state.1.get? entry.1 with
  | some oldCacheOffset => (state.1.insert entry.1 entry.2, oldCacheOffset :: state.2)
  | none => (state.1.insert entry.1 entry.2, state.2)

/-- One cache read into the state: its stored pieces, then its free offsets below its
high-water mark, then its backend. -/
def mergeCacheState (state : PieceCachesState K) (cache : CacheState K) : PieceCachesState K :=
  let (storedPieces, danglingFreeOffsets) :=
    cache.cacheStoredPieces.entries.foldl mergeStoredPiece
      (state.storedPieces, state.danglingFreeOffsets)
  { storedPieces
    danglingFreeOffsets := danglingFreeOffsets ++
      cache.cacheFreeOffsets.filter (·.pieceOffset < cache.backend.usedCapacity)
    backends := state.backends ++ [cache.backend] }

/-- The state `FarmerCacheWorker::initialize` builds from the caches, each given by its
`max_num_elements` and its contents; a cache whose index does not fit `CacheIndex` is
ignored. -/
def initializePieceCaches (newPieceCaches : List (ℕ × List (ℕ × Option K))) : PieceCachesState K :=
  ((newPieceCaches.zipIdx.filter (·.2 < cacheIndexLimit)).map fun cache =>
      readCache cache.2 cache.1.1 cache.1.2).foldl mergeCacheState
    ⟨BTreeMap.empty ⟨0, 0⟩, [], []⟩

/-! ## The worker -/

namespace PieceCachesState

/-- One downloaded piece of the initial sync: a free slot, then, if the write succeeds, the
key stored there. With no free slot the batch stops. -/
def syncStorePiece (state : PieceCachesState K) (key : K) (written : Bool) :
    PieceCachesState K :=
  match state.popFreeOffset with
  | (none, state) => state
  | (some offset, state) => if written then (state.pushStoredPiece key offset).2 else state

/-- `persist_piece_in_cache`: the slot of the entry `should_replace` takes out, or else a free
slot, gets the piece if the write succeeds. -/
def persistPieceInCache (state : PieceCachesState K) (key : K) (written : Bool) :
    PieceCachesState K :=
  match state.shouldReplace key with
  | (some (_, offset), state) =>
    match state.getBackend offset.cacheIndex with
    | none => state
    | some _ => if written then (state.pushStoredPiece key offset).2 else state
  | (none, state) =>
    match state.popFreeOffset with
    | (none, state) => state
    | (some offset, state) =>
      match state.getBackend offset.cacheIndex with
      | none => state
      | some _ => if written then (state.pushStoredPiece key offset).2 else state

/-- `WorkerCommand::ForgetKey`: the key's slot becomes a dangling free offset. -/
def forgetKey (state : PieceCachesState K) (key : K) : PieceCachesState K :=
  match state.removeStoredPiece key with
  | (none, state) => state
  | (some offset, state) =>
    match state.getBackend offset.cacheIndex with
    | none => state
    | some _ => state.pushDanglingFreeOffset offset

end PieceCachesState

end Subspace.Farmer
