import Subspace.Lib.Except
import Subspace.Archiving.Codec

/-!
# The segment headers store of the consensus client

`SegmentHeadersStore` (`sc-consensus-subspace/src/archiver.rs`) keeps every segment header
the node knows, in an in-memory cache and, for restarts, in the client's auxiliary database.
Each call of `add_segment_headers` that has something to store writes one batch under the
next key index, `(b"segment-headers", key_index.to_le_bytes())`, and `new` reads the batches
back from key index `0` until a key is missing. `segment_headers_for_block` answers which
headers a block must carry: those of the segments whose last archived block is
`confirmation_depth_k + 1` blocks before it.

This module models the store with its key encoding and the SCALE encoding of a batch, and
`insert_aux` as a write that succeeds or fails as its caller says. It proves:
* every call keeps the cache gap-free, `cache[i].segment_index() = i`, and extends it by
  exactly the headers the scan accepts, or not at all when it fails
  (`gapFree_addSegmentHeaders`, `gapFree_addAll`);
* while no write fails, `new` over the database gives back the cache
  (`SegmentHeadersStore.reload_addAll`);
* a failed write breaks that: `add_segment_headers` takes the key index before the write and
  does not give it back, so the key it failed to write stays missing and `new` stops there,
  before every batch written later (`segment_headers_lost_after_failed_write`);
* `segment_headers_for_block` returns the headers whose last archived block number is
  `b - 1 - confirmation_depth_k`, when the numbers do not decrease along the segments
  (`segmentHeadersForBlock_eq`).
-/

namespace Subspace.Consensus

open Subspace.Archiving

/-! ## The database -/

/-- The values under byte-string keys of an `AuxStore`. -/
abbrev AuxStore := List UInt8 → Option (List UInt8)

/-- `KEY_PREFIX`, the bytes of `b"segment-headers"`. -/
def keyPrefix : List UInt8 :=
  [115, 101, 103, 109, 101, 110, 116, 45, 104, 101, 97, 100, 101, 114, 115]

/-- `key`: the SCALE encoding of the prefix as a byte slice and of the key index as two
little-endian bytes. -/
def key (keyIndex : UInt16) : List UInt8 := encodeBytes keyPrefix ++ encodeLe 2 keyIndex.toNat

/-- `Vec::<SegmentHeader>::encode`: the compact length, then the headers. -/
def encodeSegmentHeaders (segmentHeaders : List SegmentHeader) : List UInt8 :=
  encodeCompact segmentHeaders.length ++ segmentHeaders.flatMap SegmentHeader.encode

/-- `count` headers one after another. -/
def decodeSegmentHeadersN : ℕ → List UInt8 → Option (List SegmentHeader × List UInt8)
  | 0, rest => some ([], rest)
  | count + 1, input =>
    match SegmentHeader.decode input with
    | none => none
    | some (header, rest) =>
      (decodeSegmentHeadersN count rest).map fun (headers, rest) => (header :: headers, rest)

/-- `Vec::<SegmentHeader>::decode`: the compact length, then that many headers. -/
def decodeSegmentHeaders (input : List UInt8) : Option (List SegmentHeader) :=
  match decodeCompact input with
  | none => none
  | some (count, rest) => (decodeSegmentHeadersN count rest).map Prod.fst

/-! ## The store -/

/-- `SegmentHeadersStore` with its `SegmentHeadersStoreInner`. -/
structure SegmentHeadersStore where
  auxStore : AuxStore
  nextKeyIndex : UInt16
  cache : List SegmentHeader
  confirmationDepthK : ℕ

/-- The `while let` loop of `new` from `nextKeyIndex`, with `fuel` key indices left before
`next_key_index += 1` overflows its `u16`. `none` where a batch does not decode (the
`expect` "Always correct segment header unless DB is corrupted") or the counter overflows. -/
def loadSegmentHeaders (auxStore : AuxStore) :
    ℕ → UInt16 → Option (UInt16 × List SegmentHeader)
  | 0, _ => none
  | fuel + 1, nextKeyIndex =>
    match auxStore (key nextKeyIndex) with
    | none => some (nextKeyIndex, [])
    | some bytes =>
      match decodeSegmentHeaders bytes with
      | none => none
      | some segmentHeaders =>
        (loadSegmentHeaders auxStore fuel (nextKeyIndex + 1)).map fun (next, cache) =>
          (next, segmentHeaders ++ cache)

/-- `SegmentHeadersStore::new`. -/
def SegmentHeadersStore.new (auxStore : AuxStore) (confirmationDepthK : ℕ) :
    Option SegmentHeadersStore :=
  (loadSegmentHeaders auxStore (2 ^ 16) 0).map fun (nextKeyIndex, cache) =>
    ⟨auxStore, nextKeyIndex, cache, confirmationDepthK⟩

/-- The index of the last header of a cache, `len().checked_sub(1)`. -/
def lastIndexOf (cache : List SegmentHeader) : Option ℕ :=
  match cache.length with
  | 0 => none
  | n + 1 => some n

/-- `max_segment_index`. -/
def SegmentHeadersStore.maxSegmentIndex (store : SegmentHeadersStore) : Option ℕ :=
  lastIndexOf store.cache

/-- `get_segment_header`. -/
def SegmentHeadersStore.getSegmentHeader (store : SegmentHeadersStore) (segmentIndex : ℕ) :
    Option SegmentHeader :=
  store.cache[segmentIndex]?

/-- The errors of `add_segment_headers`. -/
inductive AddSegmentHeadersError
  /-- "Segment index {segment_index} must strictly follow {last_segment_index}, can't store
  segment header" -/
  | mustStrictlyFollow (segmentIndex lastSegmentIndex : ℕ)
  /-- "First segment header index must be zero, found index {segment_index}" -/
  | firstMustBeZero (segmentIndex : ℕ)
  /-- The error `insert_aux` returned. -/
  | insertAux
deriving DecidableEq, Repr

/-- The scan of `add_segment_headers` with the running maximum `maybeLastSegmentIndex`: a
header at or below it is skipped, one above it must follow it (or be `0` on an empty store). -/
def segmentHeadersToStore : Option ℕ → List SegmentHeader →
    Except AddSegmentHeadersError (List SegmentHeader)
  | _, [] => .ok []
  | some lastSegmentIndex, header :: rest =>
    if header.segmentIndex ≤ lastSegmentIndex then
      segmentHeadersToStore (some lastSegmentIndex) rest
    else if header.segmentIndex ≠ lastSegmentIndex + 1 then
      .error (.mustStrictlyFollow header.segmentIndex lastSegmentIndex)
    else (segmentHeadersToStore (some header.segmentIndex) rest).map (header :: ·)
  | none, header :: rest =>
    if header.segmentIndex ≠ 0 then .error (.firstMustBeZero header.segmentIndex)
    else (segmentHeadersToStore (some header.segmentIndex) rest).map (header :: ·)

/-- `add_segment_headers`, with `written` the outcome of `insert_aux`. The key index is taken
with `fetch_add` before the write, so a failed write still moves it on. -/
def SegmentHeadersStore.addSegmentHeaders (store : SegmentHeadersStore)
    (segmentHeaders : List SegmentHeader) (written : Bool) :
    SegmentHeadersStore × Except AddSegmentHeadersError Unit :=
  match segmentHeadersToStore store.maxSegmentIndex segmentHeaders with
  | .error error => (store, .error error)
  | .ok [] => (store, .ok ())
  | .ok segmentHeadersToStore =>
    let keyIndex := store.nextKeyIndex
    let store := { store with nextKeyIndex := keyIndex + 1 }
    if written then
      ({ store with
          auxStore := Function.update store.auxStore (key keyIndex)
            (some (encodeSegmentHeaders segmentHeadersToStore))
          cache := store.cache ++ segmentHeadersToStore }, .ok ())
    else (store, .error .insertAux)

/-- The inner `while let` of `segment_headers_for_block`: from `segmentIndex` down, the
headers whose last archived block is `number`, put in front, until one is not. Past index `0`,
`segment_index -= 1` wraps around (release builds) and no header has that index. -/
def spanningSegmentHeaders (cache : List SegmentHeader) (number : ℕ) (segmentIndex : ℕ)
    (headersForBlock : List SegmentHeader) : List SegmentHeader :=
  match cache[segmentIndex]? with
  | none => headersForBlock
  | some header =>
    if header.lastArchivedBlock.number = number then
      match segmentIndex with
      | 0 => header :: headersForBlock
      | previous + 1 => spanningSegmentHeaders cache number previous (header :: headersForBlock)
    else headersForBlock

/-- `target_block_number` of a header: the block immediately after its last archived block,
plus the confirmation depth. -/
def targetBlockNumber (confirmationDepthK : ℕ) (header : SegmentHeader) : ℕ :=
  header.lastArchivedBlock.number + 1 + confirmationDepthK

/-- The outer `loop` of `segment_headers_for_block` at `currentSegmentIndex`. `none` where the
`expect` on the current header fires. -/
def findSegmentHeaders (cache : List SegmentHeader) (confirmationDepthK blockNumber : ℕ)
    (currentSegmentIndex : ℕ) : Option (List SegmentHeader) :=
  match cache[currentSegmentIndex]? with
  | none => none
  | some currentSegmentHeader =>
    if targetBlockNumber confirmationDepthK currentSegmentHeader = blockNumber then
      some (spanningSegmentHeaders cache currentSegmentHeader.lastArchivedBlock.number
        (currentSegmentIndex - 1) [currentSegmentHeader])
    else if targetBlockNumber confirmationDepthK currentSegmentHeader > blockNumber then
      -- no need to check the initial segment
      match currentSegmentIndex with
      | previous + 2 => findSegmentHeaders cache confirmationDepthK blockNumber (previous + 1)
      | _ => some []
    else some []

/-- `segment_headers_for_block`; `none` where an `expect` fires. -/
def SegmentHeadersStore.segmentHeadersForBlock (store : SegmentHeadersStore)
    (blockNumber : ℕ) : Option (List SegmentHeader) :=
  match store.maxSegmentIndex with
  | none => some []
  | some lastSegmentIndex =>
    if blockNumber = 1 then (store.getSegmentHeader 0).map ([·])
    else if lastSegmentIndex = 0 then some []
    else findSegmentHeaders store.cache store.confirmationDepthK blockNumber lastSegmentIndex

/-! ## Keys and batches -/

/-- Distinct key indices have distinct keys: the last two bytes of a key are its index. -/
theorem key_injective : Function.Injective key := by
  intro i j same
  have tail : encodeLe 2 i.toNat = encodeLe 2 j.toNat := List.append_cancel_left same
  have decoded := congrArg (fun bytes => decodeLe 2 (bytes ++ [])) tail
  simp only [decodeLe_encodeLe, Option.some.injEq, Prod.mk.injEq, and_true] at decoded
  have iFits := UInt16.toNat_lt i
  have jFits := UInt16.toNat_lt j
  apply UInt16.toNat_inj.mp
  omega

theorem ofNat_succ (j : ℕ) : UInt16.ofNat (j + 1) = UInt16.ofNat j + 1 := by
  apply UInt16.toNat_inj.mp
  have one : (1 : UInt16).toNat = 1 := rfl
  rw [UInt16.toNat_add, UInt16.toNat_ofNat', UInt16.toNat_ofNat', one]
  omega

/-- The next key index, where the current one is not the last. -/
theorem toNat_add_one {keyIndex : UInt16} (room : keyIndex.toNat + 1 < 2 ^ 16) :
    (keyIndex + 1).toNat = keyIndex.toNat + 1 := by
  rw [UInt16.toNat_add, UInt16.toNat_one, Nat.mod_eq_of_lt room]

/-- A key index other than `keyIndex` names another key. -/
theorem key_ofNat_ne {i : ℕ} {keyIndex : UInt16} (fits : i < 2 ^ 16) (other : i ≠ keyIndex.toNat) :
    key (UInt16.ofNat i) ≠ key keyIndex := by
  intro same
  have indices := congrArg UInt16.toNat (key_injective same)
  rw [UInt16.toNat_ofNat_of_lt' fits] at indices
  exact other indices

theorem decodeSegmentHeadersN_encode : ∀ (headers : List SegmentHeader),
    (∀ header ∈ headers, header.WellFormed) → ∀ rest : List UInt8,
    decodeSegmentHeadersN headers.length (headers.flatMap SegmentHeader.encode ++ rest) =
      some (headers, rest)
  | [], _, _ => rfl
  | header :: headers, wellFormed, rest => by
    rw [List.length_cons, List.flatMap_cons, List.append_assoc, decodeSegmentHeadersN,
      SegmentHeader.decode_encode (wellFormed header List.mem_cons_self)]
    dsimp only
    rw [decodeSegmentHeadersN_encode headers
        (fun other member => wellFormed other (List.mem_cons_of_mem header member)) rest]
    rfl

/-- A batch of well-formed headers decodes to itself. -/
theorem decodeSegmentHeaders_encode {headers : List SegmentHeader}
    (wellFormed : ∀ header ∈ headers, header.WellFormed) (fits : headers.length < 2 ^ 32) :
    decodeSegmentHeaders (encodeSegmentHeaders headers) = some headers := by
  have counted := decodeCompact_encodeCompact fits (headers.flatMap SegmentHeader.encode)
  have decoded := decodeSegmentHeadersN_encode headers wellFormed []
  rw [List.append_nil] at decoded
  rw [decodeSegmentHeaders, encodeSegmentHeaders, counted]
  simp only [decoded, Option.map_some]

/-- A batch the store can write and read back: short enough for its compact length, and of
headers whose fields fit their widths. -/
def Storable (headers : List SegmentHeader) : Prop :=
  headers.length < 2 ^ 32 ∧ ∀ header ∈ headers, header.WellFormed

/-- `new` reads the batches stored under the key indices below a missing one, in order. -/
theorem loadSegmentHeaders_of_batches {auxStore : AuxStore} {batches : List (List SegmentHeader)}
    (fits : batches.length < 2 ^ 16) (storable : ∀ batch ∈ batches, Storable batch)
    (stored : ∀ i (lt : i < batches.length),
      auxStore (key (UInt16.ofNat i)) = some (encodeSegmentHeaders batches[i]))
    (vacant : auxStore (key (UInt16.ofNat batches.length)) = none) :
    loadSegmentHeaders auxStore (2 ^ 16) 0 =
      some (UInt16.ofNat batches.length, batches.flatten) := by
  -- the loop from key index `j`, with `d` batches left to read
  have fromIndex : ∀ d j, j + d = batches.length →
      loadSegmentHeaders auxStore (2 ^ 16 - j) (UInt16.ofNat j) =
        some (UInt16.ofNat batches.length, (batches.drop j).flatten) := by
    intro d
    induction d with
    | zero =>
      intro j last
      rw [Nat.add_zero] at last
      subst last
      have fuel : 2 ^ 16 - batches.length = (2 ^ 16 - batches.length - 1) + 1 := by omega
      rw [fuel, loadSegmentHeaders, vacant, List.drop_length, List.flatten_nil]
    | succ d ih =>
      intro j before
      have lt : j < batches.length := by omega
      have fuel : 2 ^ 16 - j = (2 ^ 16 - (j + 1)) + 1 := by omega
      obtain ⟨short, wellFormed⟩ := storable batches[j] (List.getElem_mem lt)
      rw [fuel, loadSegmentHeaders, stored j lt]
      dsimp only
      rw [decodeSegmentHeaders_encode wellFormed short]
      dsimp only
      rw [← ofNat_succ, ih (j + 1) (by omega), List.drop_eq_getElem_cons lt, List.flatten_cons]
      rfl
  simpa using fromIndex batches.length 0 (Nat.zero_add _)

/-! ## What one call does -/

/-- The headers the scan accepts are taken from its input, in order. -/
theorem segmentHeadersToStore_sublist : ∀ {last : Option ℕ} {segmentHeaders accepted :
    List SegmentHeader}, segmentHeadersToStore last segmentHeaders = .ok accepted →
    accepted.Sublist segmentHeaders
  | _, [], accepted, scanned => by
    cases scanned
    exact List.Sublist.slnil
  | some last, header :: rest, accepted, scanned => by
    simp only [segmentHeadersToStore] at scanned
    split_ifs at scanned with skipped following
    · exact (segmentHeadersToStore_sublist scanned).cons header
    · obtain ⟨tail, scannedTail, rfl⟩ := Except.map_ok_iff.1 scanned
      exact (segmentHeadersToStore_sublist scannedTail).cons_cons header
  | none, header :: rest, accepted, scanned => by
    simp only [segmentHeadersToStore] at scanned
    split_ifs at scanned with first
    obtain ⟨tail, scannedTail, rfl⟩ := Except.map_ok_iff.1 scanned
    exact (segmentHeadersToStore_sublist scannedTail).cons_cons header

/-- A cache whose header at position `i` has segment index `i`. -/
def GapFree (cache : List SegmentHeader) : Prop :=
  ∀ i (lt : i < cache.length), cache[i].segmentIndex = i

theorem gapFree_append_singleton {cache : List SegmentHeader} {header : SegmentHeader}
    (gapFree : GapFree cache) (next : header.segmentIndex = cache.length) :
    GapFree (cache ++ [header]) := by
  intro i lt
  rw [List.length_append, List.length_singleton] at lt
  rcases Nat.lt_or_ge i cache.length with before | last
  · rw [List.getElem_append_left before]
    exact gapFree i before
  · have atEnd : i = cache.length := by omega
    subst atEnd
    rw [List.getElem_append_right (Nat.le_refl _)]
    simpa using next

/-- One step of the scan from the last index of a cache: the header is skipped, or it is
accepted as the index after the cache and the scan goes on from it. -/
theorem segmentHeadersToStore_cons_cases {cache : List SegmentHeader} {header : SegmentHeader}
    {rest accepted : List SegmentHeader}
    (scanned : segmentHeadersToStore (lastIndexOf cache) (header :: rest) = .ok accepted) :
    segmentHeadersToStore (lastIndexOf cache) rest = .ok accepted ∨
    ∃ tail, header.segmentIndex = cache.length ∧
      segmentHeadersToStore (some header.segmentIndex) rest = .ok tail ∧
      accepted = header :: tail := by
  -- the running maximum is the last index of the cache, none on an empty cache
  cases length : cache.length with
  | zero =>
    rw [lastIndexOf, length] at scanned
    simp only [segmentHeadersToStore] at scanned
    split_ifs at scanned with first
    obtain ⟨tail, scannedTail, rfl⟩ := Except.map_ok_iff.1 scanned
    exact .inr ⟨tail, not_not.1 first, scannedTail, rfl⟩
  | succ lastIndex =>
    have same : lastIndexOf cache = some lastIndex := by rw [lastIndexOf, length]
    rw [same] at scanned ⊢
    simp only [segmentHeadersToStore] at scanned
    split_ifs at scanned with skipped following
    · exact .inl scanned
    · obtain ⟨tail, scannedTail, rfl⟩ := Except.map_ok_iff.1 scanned
      exact .inr ⟨tail, not_not.1 following, scannedTail, rfl⟩

/-- The scan from the last index of a gap-free cache accepts headers that continue it. -/
theorem gapFree_append_segmentHeadersToStore : ∀ {segmentHeaders accepted : List SegmentHeader}
    {cache : List SegmentHeader}, GapFree cache →
    segmentHeadersToStore (lastIndexOf cache) segmentHeaders = .ok accepted →
    GapFree (cache ++ accepted)
  | [], accepted, cache, gapFree, scanned => by
    cases scanned
    simpa using gapFree
  | header :: rest, accepted, cache, gapFree, scanned => by
    rcases segmentHeadersToStore_cons_cases scanned with skipped | ⟨tail, next, scannedTail, rfl⟩
    · exact gapFree_append_segmentHeadersToStore gapFree skipped
    · -- the accepted header extends the cache, and the scan goes on from its index
      have extended : GapFree (cache ++ [header]) := gapFree_append_singleton gapFree next
      have last : lastIndexOf (cache ++ [header]) = some header.segmentIndex := by
        simp [lastIndexOf, next]
      rw [← last] at scannedTail
      simpa using gapFree_append_segmentHeadersToStore extended scannedTail

/-- What `add_segment_headers` does: a failed scan changes nothing, an empty one stores
nothing, and otherwise the key index moves on, and the batch is written and the cache extended
if and only if the write succeeds. -/
theorem addSegmentHeaders_cases (store : SegmentHeadersStore)
    (segmentHeaders : List SegmentHeader) (written : Bool) :
    (∃ error, segmentHeadersToStore store.maxSegmentIndex segmentHeaders = .error error ∧
      store.addSegmentHeaders segmentHeaders written = (store, .error error)) ∨
    (segmentHeadersToStore store.maxSegmentIndex segmentHeaders = .ok [] ∧
      store.addSegmentHeaders segmentHeaders written = (store, .ok ())) ∨
    (∃ accepted, accepted ≠ [] ∧
      segmentHeadersToStore store.maxSegmentIndex segmentHeaders = .ok accepted ∧
      store.addSegmentHeaders segmentHeaders written =
        if written then
          (⟨Function.update store.auxStore (key store.nextKeyIndex)
              (some (encodeSegmentHeaders accepted)), store.nextKeyIndex + 1,
            store.cache ++ accepted, store.confirmationDepthK⟩, .ok ())
        else
          (⟨store.auxStore, store.nextKeyIndex + 1, store.cache, store.confirmationDepthK⟩,
            .error .insertAux)) := by
  unfold SegmentHeadersStore.addSegmentHeaders
  split
  · rename_i error scanned
    exact .inl ⟨error, scanned, rfl⟩
  · rename_i scanned
    exact .inr (.inl ⟨scanned, rfl⟩)
  · rename_i accepted nonempty scanned
    refine .inr (.inr ⟨accepted, fun empty => nonempty empty, scanned, ?_⟩)
    cases written <;> rfl

/-- Every call leaves a gap-free cache gap-free; the cache changes only by the headers the scan
accepts, appended in order, and only when the call returns `Ok`. -/
theorem gapFree_addSegmentHeaders {store : SegmentHeadersStore} (gapFree : GapFree store.cache)
    (segmentHeaders : List SegmentHeader) (written : Bool) :
    GapFree (store.addSegmentHeaders segmentHeaders written).1.cache ∧
    ((store.addSegmentHeaders segmentHeaders written).2 = .ok () →
      ∃ accepted, segmentHeadersToStore store.maxSegmentIndex segmentHeaders = .ok accepted ∧
        (store.addSegmentHeaders segmentHeaders written).1.cache = store.cache ++ accepted) ∧
    ((store.addSegmentHeaders segmentHeaders written).2 ≠ .ok () →
      (store.addSegmentHeaders segmentHeaders written).1.cache = store.cache) := by
  rcases addSegmentHeaders_cases store segmentHeaders written with
    ⟨error, -, failed⟩ | ⟨scanned, unchanged⟩ | ⟨accepted, -, scanned, added⟩
  · rw [failed]
    refine ⟨gapFree, fun ok => ?_, fun _ => rfl⟩
    simp at ok
  · rw [unchanged]
    exact ⟨gapFree, fun _ => ⟨[], scanned, (List.append_nil _).symm⟩, fun _ => rfl⟩
  · cases written with
    | true =>
      rw [added, if_pos rfl]
      exact ⟨gapFree_append_segmentHeadersToStore gapFree scanned,
        fun _ => ⟨accepted, scanned, rfl⟩, fun notOk => absurd rfl notOk⟩
    | false =>
      rw [added, if_neg Bool.false_ne_true]
      refine ⟨gapFree, fun ok => ?_, fun _ => rfl⟩
      simp at ok

/-- A call keeps the confirmation depth, writes at most the key of the next key index, and
leaves the key index as it is or moves it on by one. -/
theorem addSegmentHeaders_frame (store : SegmentHeadersStore) (segmentHeaders : List SegmentHeader)
    (written : Bool) :
    (store.addSegmentHeaders segmentHeaders written).1.confirmationDepthK =
      store.confirmationDepthK ∧
    (∀ other ≠ key store.nextKeyIndex,
      (store.addSegmentHeaders segmentHeaders written).1.auxStore other = store.auxStore other) ∧
    ((store.addSegmentHeaders segmentHeaders written).1.nextKeyIndex = store.nextKeyIndex ∨
      (store.addSegmentHeaders segmentHeaders written).1.nextKeyIndex = store.nextKeyIndex + 1) := by
  rcases addSegmentHeaders_cases store segmentHeaders written with
    ⟨_, -, failed⟩ | ⟨-, unchanged⟩ | ⟨_, -, -, added⟩
  · rw [failed]
    exact ⟨rfl, fun _ _ => rfl, .inl rfl⟩
  · rw [unchanged]
    exact ⟨rfl, fun _ _ => rfl, .inl rfl⟩
  · rw [added]
    cases written
    · exact ⟨rfl, fun _ _ => rfl, .inr rfl⟩
    · exact ⟨rfl, fun _ ne => Function.update_of_ne ne _ _, .inr rfl⟩

/-- Where the key index does not wrap around, a call moves it on by at most one. -/
theorem nextKeyIndex_addSegmentHeaders (store : SegmentHeadersStore)
    (segmentHeaders : List SegmentHeader) (written : Bool)
    (room : store.nextKeyIndex.toNat + 1 < 2 ^ 16) :
    store.nextKeyIndex.toNat ≤
      (store.addSegmentHeaders segmentHeaders written).1.nextKeyIndex.toNat ∧
    (store.addSegmentHeaders segmentHeaders written).1.nextKeyIndex.toNat ≤
      store.nextKeyIndex.toNat + 1 := by
  rcases (addSegmentHeaders_frame store segmentHeaders written).2.2 with same | next
  · rw [same]
    omega
  · rw [next, toNat_add_one room]
    omega

/-- A run of calls of `add_segment_headers`, each with its headers and whether its write
succeeds. -/
def SegmentHeadersStore.addAll (store : SegmentHeadersStore) :
    List (List SegmentHeader × Bool) → SegmentHeadersStore
  | [] => store
  | (segmentHeaders, written) :: calls =>
    (store.addSegmentHeaders segmentHeaders written).1.addAll calls

/-- Over any run, with writes failing or not, the cache stays gap-free. -/
theorem gapFree_addAll : ∀ {store : SegmentHeadersStore}
    (calls : List (List SegmentHeader × Bool)), GapFree store.cache →
    GapFree (store.addAll calls).cache
  | _, [], gapFree => gapFree
  | _, (segmentHeaders, written) :: calls, gapFree =>
    gapFree_addAll calls (gapFree_addSegmentHeaders gapFree segmentHeaders written).1

/-! ## Durability -/

/-- The database holds the cache: under each key index below the next one a batch, under the
others nothing, and the cache is the batches in key order. -/
structure SegmentHeadersStore.Durable (store : SegmentHeadersStore)
    (batches : List (List SegmentHeader)) : Prop where
  nextKeyIndex : store.nextKeyIndex.toNat = batches.length
  stored : ∀ i (lt : i < batches.length),
    store.auxStore (key (UInt16.ofNat i)) = some (encodeSegmentHeaders batches[i])
  vacant : ∀ i, batches.length ≤ i → i < 2 ^ 16 → store.auxStore (key (UInt16.ofNat i)) = none
  cache : store.cache = batches.flatten
  storable : ∀ batch ∈ batches, Storable batch

namespace SegmentHeadersStore.Durable

variable {store : SegmentHeadersStore} {batches : List (List SegmentHeader)}

theorem length_lt (durable : store.Durable batches) : batches.length < 2 ^ 16 :=
  durable.nextKeyIndex ▸ UInt16.toNat_lt store.nextKeyIndex

/-- `new` over the database of a durable store gives the store back. -/
theorem reload (durable : store.Durable batches) :
    SegmentHeadersStore.new store.auxStore store.confirmationDepthK = some store := by
  have loaded := loadSegmentHeaders_of_batches durable.length_lt durable.storable durable.stored
    (durable.vacant batches.length (Nat.le_refl _) durable.length_lt)
  rw [← durable.nextKeyIndex, UInt16.ofNat_toNat, ← durable.cache] at loaded
  rw [SegmentHeadersStore.new, loaded]
  rfl

/-- A write of a new batch under the next key index, with room for another index after it,
keeps the database holding the cache. -/
theorem write {accepted : List SegmentHeader} (durable : store.Durable batches)
    (storable : Storable accepted) (room : store.nextKeyIndex.toNat + 1 < 2 ^ 16) :
    SegmentHeadersStore.Durable ⟨Function.update store.auxStore (key store.nextKeyIndex)
        (some (encodeSegmentHeaders accepted)), store.nextKeyIndex + 1,
      store.cache ++ accepted, store.confirmationDepthK⟩ (batches ++ [accepted]) := by
  have length := durable.length_lt
  have next := durable.nextKeyIndex
  refine ⟨?_, ?_, ?_, ?_, ?_⟩
  · dsimp only
    rw [toNat_add_one room, List.length_append, List.length_singleton, next]
  · intro i lt
    dsimp only
    rw [List.length_append, List.length_singleton] at lt
    rcases Nat.lt_or_ge i batches.length with before | last
    · rw [Function.update_of_ne (key_ofNat_ne (by omega) (by omega)),
        List.getElem_append_left before]
      exact durable.stored i before
    · have atEnd : i = batches.length := by omega
      subst atEnd
      have keyAt : key (UInt16.ofNat batches.length) = key store.nextKeyIndex := by
        rw [← next, UInt16.ofNat_toNat]
      rw [keyAt, Function.update_self]
      simp
  · intro i after fits
    dsimp only
    rw [List.length_append, List.length_singleton] at after
    rw [Function.update_of_ne (key_ofNat_ne fits (by omega))]
    exact durable.vacant i (by omega) fits
  · rw [durable.cache, List.flatten_append, List.flatten_singleton]
  · intro batch member
    rcases List.mem_append.1 member with old | new
    · exact durable.storable batch old
    · rw [List.mem_singleton.1 new]
      exact storable

/-- A call whose write succeeds keeps the database holding the cache. -/
theorem addSegmentHeaders (durable : store.Durable batches) {segmentHeaders : List SegmentHeader}
    (storable : Storable segmentHeaders) (room : store.nextKeyIndex.toNat + 1 < 2 ^ 16) :
    ∃ batches', (store.addSegmentHeaders segmentHeaders true).1.Durable batches' := by
  rcases addSegmentHeaders_cases store segmentHeaders true with
    ⟨error, -, failed⟩ | ⟨-, unchanged⟩ | ⟨accepted, -, scanned, added⟩
  · exact ⟨batches, failed ▸ durable⟩
  · exact ⟨batches, unchanged ▸ durable⟩
  · rw [added, if_pos rfl]
    have taken := segmentHeadersToStore_sublist scanned
    refine ⟨batches ++ [accepted], durable.write ⟨?_, ?_⟩ room⟩
    · exact Nat.lt_of_le_of_lt taken.length_le storable.1
    · exact fun header member => storable.2 header (taken.subset member)

end SegmentHeadersStore.Durable

/-- A fresh store over an empty database. -/
theorem SegmentHeadersStore.durable_empty (confirmationDepthK : ℕ) :
    SegmentHeadersStore.Durable ⟨fun _ => none, 0, [], confirmationDepthK⟩ [] :=
  ⟨rfl, fun _ lt => absurd lt (Nat.not_lt_zero _), fun _ _ _ => rfl, rfl, fun _ member =>
    absurd member List.not_mem_nil⟩

/-- While no write fails, `new` over the database at any point gives back the cache. -/
theorem SegmentHeadersStore.reload_addAll : ∀ {store : SegmentHeadersStore}
    {batches : List (List SegmentHeader)} (calls : List (List SegmentHeader × Bool)),
    store.Durable batches → (∀ call ∈ calls, call.2 = true ∧ Storable call.1) →
    store.nextKeyIndex.toNat + calls.length < 2 ^ 16 →
    ∃ reloaded, SegmentHeadersStore.new (store.addAll calls).auxStore store.confirmationDepthK =
      some reloaded ∧ reloaded.cache = (store.addAll calls).cache
  | _, _, [], durable, _, _ => ⟨_, durable.reload, rfl⟩
  | store, _, (segmentHeaders, written) :: calls, durable, succeeding, room => by
    obtain ⟨succeeded, storable⟩ := succeeding _ List.mem_cons_self
    simp only at succeeded storable
    subst succeeded
    have frame := addSegmentHeaders_frame store segmentHeaders true
    rw [List.length_cons] at room
    have moved := nextKeyIndex_addSegmentHeaders store segmentHeaders true (by omega)
    obtain ⟨batches', durable'⟩ := durable.addSegmentHeaders storable (by omega)
    obtain ⟨reloaded, found, same⟩ := reload_addAll calls durable'
      (fun call member => succeeding call (List.mem_cons_of_mem _ member)) (by omega)
    rw [frame.1] at found
    exact ⟨reloaded, found, same⟩

/-! ## A failed write -/

/-- Calls made from a store whose next key index is past `n` leave the keys of the indices up
to `n` as they are, while the key index does not wrap around. -/
theorem auxStore_addAll_below : ∀ (calls : List (List SegmentHeader × Bool))
    {store : SegmentHeadersStore} {n : ℕ}, n < store.nextKeyIndex.toNat →
    store.nextKeyIndex.toNat + calls.length < 2 ^ 16 → ∀ i ≤ n,
    (store.addAll calls).auxStore (key (UInt16.ofNat i)) = store.auxStore (key (UInt16.ofNat i))
  | [], _, _, _, _, _, _ => rfl
  | (segmentHeaders, written) :: calls, store, n, past, room, i, le => by
    rw [List.length_cons] at room
    -- one call writes at most the key of its own index, above `n`, and moves the index on
    obtain ⟨-, kept, -⟩ := addSegmentHeaders_frame store segmentHeaders written
    have moved := nextKeyIndex_addSegmentHeaders store segmentHeaders written (by omega)
    rw [SegmentHeadersStore.addAll, auxStore_addAll_below calls (by omega) (by omega) i le,
      kept _ (key_ofNat_ne (by omega) (by omega))]

/-- A call that has a batch to write and fails to write it loses every batch written after
it: its key index stays missing, so `new` stops there and reads the cache as it was before,
however the later calls go. -/
theorem segment_headers_lost_after_failed_write {store : SegmentHeadersStore}
    {batches : List (List SegmentHeader)} (durable : store.Durable batches)
    {failedHeaders accepted : List SegmentHeader}
    (scanned : segmentHeadersToStore store.maxSegmentIndex failedHeaders = .ok accepted)
    (nonempty : accepted ≠ []) (calls : List (List SegmentHeader × Bool))
    (room : store.nextKeyIndex.toNat + 1 + calls.length < 2 ^ 16) :
    (SegmentHeadersStore.new ((store.addSegmentHeaders failedHeaders false).1.addAll
      calls).auxStore store.confirmationDepthK).map (·.cache) = some store.cache := by
  -- the failed call moved the key index on and wrote nothing
  have failed : (store.addSegmentHeaders failedHeaders false).1 =
      ⟨store.auxStore, store.nextKeyIndex + 1, store.cache, store.confirmationDepthK⟩ := by
    rcases addSegmentHeaders_cases store failedHeaders false with
      ⟨_, wrong, -⟩ | ⟨empty, -⟩ | ⟨accepted', -, scanned', added⟩
    · rw [scanned] at wrong
      cases wrong
    · rw [scanned] at empty
      cases empty
      exact absurd rfl nonempty
    · rw [added]
      rfl
  have next := durable.nextKeyIndex
  have length := durable.length_lt
  have moved : (store.nextKeyIndex + 1).toNat = batches.length + 1 := by
    rw [toNat_add_one (by omega), next]
  have kept := auxStore_addAll_below calls
    (show batches.length < (store.addSegmentHeaders failedHeaders false).1.nextKeyIndex.toNat by
      rw [failed, moved]
      exact Nat.lt_succ_self _)
    (by rw [failed, moved]; omega)
  rw [failed] at kept
  have loaded := loadSegmentHeaders_of_batches length durable.storable
    (fun i lt => (kept i lt.le).trans (durable.stored i lt))
    ((kept batches.length (Nat.le_refl _)).trans
      (durable.vacant batches.length (Nat.le_refl _) length))
  rw [failed, SegmentHeadersStore.new, loaded, durable.cache]
  rfl

/-- From a fresh store: the first segment header fails to be written, then is written. The
cache holds it, and `new` over the database finds nothing. -/
theorem segment_headers_lost_after_failed_write_genesis :
    let genesisHeader : SegmentHeader :=
      ⟨0, FixedBytes.zero 48, FixedBytes.zero 32, ⟨0, .complete⟩⟩
    let fresh : SegmentHeadersStore := ⟨fun _ => none, 0, [], 0⟩
    segmentHeadersToStore fresh.maxSegmentIndex [genesisHeader] = .ok [genesisHeader] ∧
    ((fresh.addSegmentHeaders [genesisHeader] false).1.addAll [([genesisHeader], true)]).cache =
      [genesisHeader] ∧
    (SegmentHeadersStore.new ((fresh.addSegmentHeaders [genesisHeader] false).1.addAll
      [([genesisHeader], true)]).auxStore fresh.confirmationDepthK).map (·.cache) =
      some fresh.cache := by
  intro genesisHeader fresh
  have scanned : segmentHeadersToStore fresh.maxSegmentIndex [genesisHeader] =
      .ok [genesisHeader] := rfl
  exact ⟨scanned, rfl, segment_headers_lost_after_failed_write
    (SegmentHeadersStore.durable_empty 0) scanned (List.cons_ne_nil _ _) [([genesisHeader], true)]
    (by decide)⟩

/-! ## Headers for a block -/

/-- The headers at indices `1` to `c + 1`: those up to `c`, then the one at `c + 1`. -/
theorem take_drop_one_succ {cache : List SegmentHeader} {c : ℕ} (lt : c + 1 < cache.length) :
    (cache.drop 1).take (c + 1) = (cache.drop 1).take c ++ [cache[c + 1]] := by
  rw [List.take_add_one, List.getElem?_drop, Nat.add_comm 1 c, List.getElem?_eq_getElem lt]
  rfl

/-- With the block as the target of the header at `i` and of none above it, the headers with the
block as target are those up to `i` with the number of the one at `i`, then that one. -/
theorem filter_targetBlockNumber_of_hit {cache : List SegmentHeader}
    {confirmationDepthK blockNumber i : ℕ} (lt : i < cache.length)
    (hit : targetBlockNumber confirmationDepthK cache[i] = blockNumber)
    (above : ∀ j (inCache : j < cache.length), i < j →
      blockNumber < targetBlockNumber confirmationDepthK cache[j]) :
    cache.filter (targetBlockNumber confirmationDepthK · == blockNumber) =
      (cache.take i).filter (·.lastArchivedBlock.number = cache[i].lastArchivedBlock.number) ++
        [cache[i]] := by
  have split : cache = cache.take i ++ cache[i] :: cache.drop (i + 1) := by
    rw [← List.drop_eq_getElem_cons lt, List.take_append_drop]
  -- a target is the number shifted by the depth, so below `i` the target is the block exactly
  -- where the number is the one at `i`
  have upTo : (cache.take i).filter (targetBlockNumber confirmationDepthK · == blockNumber) =
      (cache.take i).filter (·.lastArchivedBlock.number = cache[i].lastArchivedBlock.number) := by
    apply List.filter_congr
    intro header _
    rw [Bool.eq_iff_iff, beq_iff_eq, decide_eq_true_iff]
    unfold targetBlockNumber at hit ⊢
    constructor <;> intro <;> omega
  have rest : (cache.drop (i + 1)).filter
      (targetBlockNumber confirmationDepthK · == blockNumber) = [] := by
    rw [List.filter_eq_nil_iff]
    intro header member
    obtain ⟨m, bound, rfl⟩ := List.mem_drop_iff_getElem.1 member
    have later := above (i + 1 + m) (by omega) (by omega)
    simp only [beq_iff_eq]
    omega
  have current : (targetBlockNumber confirmationDepthK cache[i] == blockNumber) = true :=
    beq_iff_eq.2 hit
  conv_lhs => rw [split]
  rw [List.filter_append, List.filter_cons, current, if_pos rfl, rest, upTo]

section ForBlock

variable {cache : List SegmentHeader}
  (monotone : cache.Pairwise fun a b => a.lastArchivedBlock.number ≤ b.lastArchivedBlock.number)
include monotone

theorem number_le_of_le {i j : ℕ} (le : i ≤ j) (lt : j < cache.length) :
    cache[i].lastArchivedBlock.number ≤ cache[j].lastArchivedBlock.number := by
  rcases Nat.lt_or_eq_of_le le with before | rfl
  · exact monotone.rel_get_of_lt before
  · exact Nat.le_refl _

/-- The headers at indices `1` to `i` have targets no later than the one at `i`. -/
theorem targetBlockNumber_le_of_mem_take (confirmationDepthK : ℕ) {i : ℕ} (lt : i < cache.length)
    {header : SegmentHeader} (member : header ∈ (cache.drop 1).take i) :
    targetBlockNumber confirmationDepthK header ≤
      targetBlockNumber confirmationDepthK cache[i] := by
  obtain ⟨j, bound, rfl⟩ := List.mem_take_iff_getElem.1 member
  rw [List.getElem_drop]
  have le := number_le_of_le monotone (show 1 + j ≤ i by simp at bound; omega) lt
  unfold targetBlockNumber
  omega

/-- The inner loop from index `i`, with numbers up to `number` below it, collects the headers
up to `i` whose number is `number`. -/
theorem spanningSegmentHeaders_eq {number : ℕ} :
    ∀ i (lt : i < cache.length), cache[i].lastArchivedBlock.number ≤ number →
    ∀ headersForBlock, spanningSegmentHeaders cache number i headersForBlock =
      (cache.take (i + 1)).filter (·.lastArchivedBlock.number = number) ++ headersForBlock := by
  intro i
  induction i with
  | zero =>
    intro lt _ headersForBlock
    rw [spanningSegmentHeaders, List.getElem?_eq_getElem lt, List.take_add_one,
      List.take_zero, List.getElem?_eq_getElem lt]
    by_cases same : cache[0].lastArchivedBlock.number = number
    · simp [same]
    · simp [same]
  | succ i ih =>
    intro lt below headersForBlock
    rw [spanningSegmentHeaders, List.getElem?_eq_getElem lt]
    dsimp only
    by_cases same : cache[i + 1].lastArchivedBlock.number = number
    · rw [if_pos same, ih (by omega) (same ▸ number_le_of_le monotone (Nat.le_succ i) lt),
        @List.take_add_one _ cache (i + 1), List.getElem?_eq_getElem lt]
      simp only [Option.toList_some, List.filter_append, List.filter_cons, same, decide_true,
        if_true, List.filter_nil, List.append_assoc, List.singleton_append]
    · -- a smaller number here, so smaller numbers all the way down
      rw [if_neg same, List.filter_eq_nil_iff.2, List.nil_append]
      intro header member
      obtain ⟨j, bound, rfl⟩ := List.mem_take_iff_getElem.1 member
      have smaller := number_le_of_le monotone (show j ≤ i + 1 by omega) lt
      simp only [decide_eq_true_eq]
      omega

/-- The outer loop from index `c`, past every header above `c` whose target is after the
block: the headers with the block as target if one of indices `1` to `c` has it, and none
otherwise. -/
theorem findSegmentHeaders_eq {confirmationDepthK blockNumber : ℕ} :
    ∀ c, c < cache.length → 1 ≤ c →
    (∀ j (inCache : j < cache.length), c < j →
      blockNumber < targetBlockNumber confirmationDepthK cache[j]) →
    findSegmentHeaders cache confirmationDepthK blockNumber c =
      some (if ((cache.drop 1).take c).any (targetBlockNumber confirmationDepthK · == blockNumber)
        then cache.filter (targetBlockNumber confirmationDepthK · == blockNumber) else []) := by
  intro c
  induction c with
  | zero => intro _ positive; omega
  | succ c ih =>
    intro lt _ above
    rw [findSegmentHeaders.eq_def, List.getElem?_eq_getElem lt]
    dsimp only
    rcases lt_trichotomy (targetBlockNumber confirmationDepthK cache[c + 1]) blockNumber with
      before | hit | after
    · -- the current target is before the block, and so is every one below it
      have none : ((cache.drop 1).take (c + 1)).any
          (targetBlockNumber confirmationDepthK · == blockNumber) = false := by
        rw [List.any_eq_false]
        intro header member
        have := targetBlockNumber_le_of_mem_take monotone confirmationDepthK lt member
        simp only [beq_iff_eq]
        omega
      rw [if_neg (by omega), if_neg (by omega), none]
      rfl
    · have found : ((cache.drop 1).take (c + 1)).any
          (targetBlockNumber confirmationDepthK · == blockNumber) = true := by
        rw [take_drop_one_succ lt, List.any_append]
        simp [hit]
      rw [if_pos hit, Nat.add_sub_cancel, spanningSegmentHeaders_eq monotone c (by omega)
        (number_le_of_le monotone (Nat.le_succ c) lt), found, if_pos rfl,
        filter_targetBlockNumber_of_hit lt hit above]
    · have current : (targetBlockNumber confirmationDepthK cache[c + 1] == blockNumber) =
          false := by
        simp only [beq_eq_false_iff_ne]
        omega
      rw [if_neg (by omega), if_pos after, take_drop_one_succ lt, List.any_append]
      -- the loop stops at index `1`, and otherwise goes on below
      cases c with
      | zero => simp [current]
      | succ c =>
        have above' : ∀ j (inCache : j < cache.length), c + 1 < j →
            blockNumber < targetBlockNumber confirmationDepthK cache[j] := by
          intro j inCache past
          rcases Nat.lt_or_eq_of_le (show c + 2 ≤ j by omega) with later | rfl
          · exact above j inCache later
          · exact after
        simp only [List.any_cons, List.any_nil, current, Bool.or_false]
        exact ih (by omega) (by omega) above'

end ForBlock

/-- When the last archived block numbers do not decrease along the segments,
`segment_headers_for_block` never panics. It returns the first header for block `1`, and for
any other block the headers whose target is that block, provided a header after the first has
it; none otherwise. -/
theorem segmentHeadersForBlock_eq (store : SegmentHeadersStore)
    (monotone : store.cache.Pairwise
      fun a b => a.lastArchivedBlock.number ≤ b.lastArchivedBlock.number)
    (blockNumber : ℕ) :
    store.segmentHeadersForBlock blockNumber = some
      (if blockNumber = 1 then store.cache.take 1
      else if (store.cache.drop 1).any (targetBlockNumber store.confirmationDepthK · == blockNumber)
      then store.cache.filter (targetBlockNumber store.confirmationDepthK · == blockNumber)
      else []) := by
  obtain ⟨auxStore, nextKeyIndex, cache, confirmationDepthK⟩ := store
  simp only at monotone ⊢
  unfold SegmentHeadersStore.segmentHeadersForBlock SegmentHeadersStore.maxSegmentIndex lastIndexOf
  cases cache with
  | nil =>
    by_cases first : blockNumber = 1 <;> simp [first]
  | cons first rest =>
    simp only [List.length_cons]
    by_cases genesis : blockNumber = 1
    · simp [genesis, SegmentHeadersStore.getSegmentHeader]
    rw [if_neg genesis, if_neg genesis, List.drop_one, List.tail_cons]
    cases rest with
    | nil => simp
    | cons second rest =>
      -- the loop starts at the last index, with nothing above it
      rw [if_neg (by simp), findSegmentHeaders_eq monotone (second :: rest).length (by simp)
        (by simp) (fun j inCache past => absurd inCache (by simp at past ⊢; omega)),
        List.drop_one, List.tail_cons, List.take_length]

end Subspace.Consensus
