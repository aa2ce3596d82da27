import Mathlib
import Subspace.Lib.Enumerate
import Subspace.FarmerComponents.Sector

/-!
# The chunk locations of the sector contents map agree

For a map built by `SectorContentsMap::new` and `EncodedChunksUsed`, in which no record has
more than `Record::NUM_CHUNKS` bits set:

* each record has a chunk in exactly `NUM_CHUNKS` s-buckets: its set bits, encoded, and its
  first unset s-buckets, unencoded (`recordChunks`);
* the position of a record's chunk in the walk of `iter_record_chunk_to_plot` is the offset of
  its s-bucket plus the count of `par_iter_record_chunk_to_plot`, below the size of the plot
  (`plotLocations`), and no two chunks share one (`iterRecordChunkToPlot_location_injective`);
* `from_bytes` decodes what `encode_into` encodes (`fromBytes_encodeInto`).

The bound on the bits set is not kept by `EncodedChunksUsed`, whose `drop` only asserts that
they fit an `SBucket`: `sector_contents_map_overfull_record` writes a record with more, which
`from_bytes` then rejects.
-/

namespace Subspace.FarmerComponents

open SingleRecordBitArray

section Bits

@[simp] theorem bit_default (i : ℕ) : SingleRecordBitArray.default.bit i = false := by
  simp [SingleRecordBitArray.default, bit]

theorem numSBuckets_eq_bits : numSBuckets = 8 * singleRecordBitArraySize := by
  rw [singleRecordBitArraySize, numSBuckets_eq]
  decide

/-- `count_ones` counts the bits of each byte. -/
theorem countOnes_eq_sum_bytes (bitArray : SingleRecordBitArray) :
    bitArray.countOnes =
      (bitArray.bytes.map fun byte => (List.range 8).countP byte.toNat.testBit).sum := by
  rw [countOnes, countOnesBelow, numSBuckets_eq_bits, ← bitArray.length_bytes]
  exact Enumerate.countP_range_mul_getD (show 0 < 8 by decide) (fun byte => byte.toNat.testBit) 0
    bitArray.bytes

@[simp] theorem countOnes_default : SingleRecordBitArray.default.countOnes = 0 := by
  rw [countOnes, countOnesBelow, List.countP_eq_zero]
  intro i _
  simp

/-- A record of one byte repeated has the bits of that byte in each of its bytes. -/
theorem countOnes_replicate (byte : UInt8) :
    (⟨List.replicate singleRecordBitArraySize byte, List.length_replicate⟩ :
      SingleRecordBitArray).countOnes =
        singleRecordBitArraySize * (List.range 8).countP byte.toNat.testBit := by
  rw [countOnes_eq_sum_bytes, List.map_replicate, List.sum_replicate, smul_eq_mul]

theorem singleRecordBitArraySize_eq : singleRecordBitArraySize = 8192 := by
  rw [singleRecordBitArraySize, numSBuckets_eq]
  rfl

/-- The bits below `s` are the set ones and the unset ones. -/
theorem countOnesBelow_add_unset (bitArray : SingleRecordBitArray) (s : ℕ) :
    bitArray.countOnesBelow s + (List.range s).countP (fun t => !bitArray.bit t) = s := by
  have split : (List.range s).length = (List.range s).countP bitArray.bit +
      (List.range s).countP (fun t => !bitArray.bit t) := by
    rw [List.length_eq_countP_add_countP bitArray.bit]
    simp
  rw [countOnesBelow, ← split, List.length_range]

end Bits

section RecordChunks

variable (bitArray : SingleRecordBitArray) (numEncodedRecordChunks : ℕ)

@[simp] theorem recordHasSBucketChunk_eq_some_true (s : ℕ) :
    recordHasSBucketChunk s bitArray numEncodedRecordChunks = some true ↔ bitArray.bit s := by
  unfold recordHasSBucketChunk
  split_ifs <;> simp_all

/-- The unencoded chunks of a record are at its first unset s-buckets, as many as its encoded
chunks fall short of `NUM_CHUNKS`. -/
theorem recordHasSBucketChunk_eq_some_false (s : ℕ) :
    recordHasSBucketChunk s bitArray numEncodedRecordChunks = some false ↔
      bitArray.bit s = false ∧
        (List.range s).countP (fun t => !bitArray.bit t) < numChunks - numEncodedRecordChunks := by
  -- `s - encoded_before` is the number of unset s-buckets before `s`
  have unsetBefore : s - bitArray.countOnesBelow s =
      (List.range s).countP (fun t => !bitArray.bit t) := by
    have := countOnesBelow_add_unset bitArray s
    omega
  unfold recordHasSBucketChunk
  by_cases set : bitArray.bit s
  · simp [set]
  · by_cases full : numEncodedRecordChunks = numChunks
    · simp [set, full]
    · simp only [set, full, if_false, unsetBefore, Bool.false_eq_true, true_and]
      split_ifs <;> simp_all

theorem isSome_recordHasSBucketChunk (s : ℕ) :
    (recordHasSBucketChunk s bitArray numEncodedRecordChunks).isSome =
      (bitArray.bit s || (!bitArray.bit s && decide ((List.range s).countP
        (fun t => !bitArray.bit t) < numChunks - numEncodedRecordChunks))) := by
  have encoded := recordHasSBucketChunk_eq_some_true bitArray numEncodedRecordChunks s
  have unencoded := recordHasSBucketChunk_eq_some_false bitArray numEncodedRecordChunks s
  cases chunk : recordHasSBucketChunk s bitArray numEncodedRecordChunks with
  | none =>
    simp only [chunk, reduceCtorEq, false_iff] at encoded unencoded
    have unsetBit : bitArray.bit s = false := by simpa using encoded
    have notBelow := fun below => unencoded ⟨unsetBit, below⟩
    simp only [unsetBit, Option.isSome_none, Bool.not_false, Bool.true_and, Bool.false_or,
      decide_eq_false_iff_not.2 notBelow]
  | some encodedChunkUsed =>
    cases encodedChunkUsed with
    | true => simp_all
    | false =>
      simp only [chunk, true_iff] at unencoded
      simp [unencoded]

/-- The chunks a record stores: exactly `NUM_CHUNKS`, the encoded ones at its set bits, the
unencoded ones at its first unset s-buckets. -/
structure RecordChunks : Prop where
  count : (List.range numSBuckets).countP
    (fun s => (recordHasSBucketChunk s bitArray numEncodedRecordChunks).isSome) = numChunks
  encoded : ∀ s, recordHasSBucketChunk s bitArray numEncodedRecordChunks = some true ↔
    bitArray.bit s
  unencoded : ∀ s, recordHasSBucketChunk s bitArray numEncodedRecordChunks = some false ↔
    bitArray.bit s = false ∧
      (List.range s).countP (fun t => !bitArray.bit t) < numChunks - bitArray.countOnes

/-- A record counted right, with at most `NUM_CHUNKS` bits set, stores `NUM_CHUNKS` chunks: its
`c` set bits and the first `NUM_CHUNKS - c` of its unset s-buckets, of which it has more. -/
theorem recordChunks_of_countOnes_le (bounded : bitArray.countOnes ≤ numChunks) :
    RecordChunks bitArray bitArray.countOnes := by
  have unset : (List.range numSBuckets).countP (fun t => !bitArray.bit t) =
      numSBuckets - bitArray.countOnes := by
    have := countOnesBelow_add_unset bitArray numSBuckets
    rw [countOnes]
    omega
  have first := Enumerate.countP_range_first (fun t => !bitArray.bit t)
    (numChunks - bitArray.countOnes) numSBuckets
  have within : numChunks ≤ numSBuckets := by
    rw [numSBuckets_eq]
    omega
  refine ⟨?_, recordHasSBucketChunk_eq_some_true bitArray _,
    recordHasSBucketChunk_eq_some_false bitArray _⟩
  calc (List.range numSBuckets).countP
        (fun s => (recordHasSBucketChunk s bitArray bitArray.countOnes).isSome)
      = bitArray.countOnes + min (numChunks - bitArray.countOnes)
          ((List.range numSBuckets).countP (fun t => !bitArray.bit t)) := by
        simp only [isSome_recordHasSBucketChunk, Enumerate.countP_or_not_and, first]
        rfl
    _ = numChunks := by
        rw [unset]
        omega

end RecordChunks

/-- Each offset of `s_bucket_offsets` is the sum of the sizes before it. -/
theorem getElem?_sBucketOffsetsFrom :
    ∀ (baseOffset : ℕ) (sBucketSizes : List ℕ) (sBucket : ℕ),
      (sBucketOffsetsFrom baseOffset sBucketSizes)[sBucket]? =
        if sBucket < sBucketSizes.length then some (baseOffset + (sBucketSizes.take sBucket).sum)
        else none
  | _, [], _ => by simp [sBucketOffsetsFrom]
  | _, _ :: _, 0 => by simp [sBucketOffsetsFrom]
  | baseOffset, sBucketSize :: rest, sBucket + 1 => by
    simp [sBucketOffsetsFrom, getElem?_sBucketOffsetsFrom (baseOffset + sBucketSize) rest sBucket,
      Nat.add_assoc]

namespace SectorContentsMap

section Invariant

/-- What a map of `pieces_in_sector` records built through `EncodedChunksUsed` keeps: a count
for each record, the number of its bits set, which fits an `SBucket`. -/
structure Consistent (piecesInSector : UInt16) (m : SectorContentsMap) : Prop where
  length_records : m.encodedRecordChunksUsed.length = piecesInSector.toNat
  counted : m.numEncodedRecordChunks = m.encodedRecordChunksUsed.map countOnes
  fits : ∀ bitArray ∈ m.encodedRecordChunksUsed, bitArray.countOnes ≤ sBucketMax

theorem Consistent.new (piecesInSector : UInt16) :
    (SectorContentsMap.new piecesInSector).Consistent piecesInSector := by
  refine ⟨by simp [SectorContentsMap.new], by simp [SectorContentsMap.new], ?_⟩
  intro bitArray mem
  obtain ⟨-, rfl⟩ := List.mem_replicate.1 mem
  simp

/-- `drop` keeps the count of the record it wrote, and fails where it would not fit. -/
theorem Consistent.write {piecesInSector : UInt16} {m m' : SectorContentsMap}
    {pieceOffset : ℕ} {bitArray : SingleRecordBitArray} (consistent : m.Consistent piecesInSector)
    (written : m.writeEncodedChunksUsed pieceOffset bitArray = some m') :
    m'.Consistent piecesInSector := by
  dsimp only [writeEncodedChunksUsed] at written
  split_ifs at written with fits
  cases written
  refine ⟨by simp [consistent.length_records], by simp [consistent.counted, List.map_set], ?_⟩
  intro written mem
  rcases List.mem_or_eq_of_mem_set mem with old | rfl
  · exact consistent.fits written old
  · exact fits

theorem Reachable.consistent {piecesInSector : UInt16} {m : SectorContentsMap} :
    m.Reachable piecesInSector → m.Consistent piecesInSector
  | .new => Consistent.new piecesInSector
  | .write _ _ reachable _ written => reachable.consistent.write written

/-- The records the iterators zip with their counts, each with the number of its bits set. -/
theorem Consistent.zip_eq {piecesInSector : UInt16} {m : SectorContentsMap}
    (consistent : m.Consistent piecesInSector) :
    m.encodedRecordChunksUsed.zip m.numEncodedRecordChunks =
      m.encodedRecordChunksUsed.map fun bitArray => (bitArray, bitArray.countOnes) := by
  rw [consistent.counted, List.zip_map_right, List.zip_eq_zipWith, List.zipWith_self,
    List.map_map]
  rfl

end Invariant

section Locations

variable (m : SectorContentsMap)

/-- The chunks of the s-buckets before `sBucket`: where `sBucket` starts in the plot. -/
def chunksBefore (sBucket : ℕ) : ℕ :=
  ((List.range sBucket).map fun t => (m.sBucketRecords t).length).sum

/-- A record's entry in an s-bucket is at the number of records before it with a chunk there. -/
theorem getElem?_sBucketRecords (sBucket i pieceOffset : ℕ) (encodedChunkUsed : Bool) :
    (m.sBucketRecords sBucket)[i]? = some (pieceOffset, encodedChunkUsed) ↔
      ∃ record, (m.encodedRecordChunksUsed.zip m.numEncodedRecordChunks)[pieceOffset]? =
          some record ∧
        recordHasSBucketChunk sBucket record.1 record.2 = some encodedChunkUsed ∧
        i = ((m.encodedRecordChunksUsed.zip m.numEncodedRecordChunks).take pieceOffset).countP
          fun record => (recordHasSBucketChunk sBucket record.1 record.2).isSome := by
  rw [sBucketRecords]
  exact Enumerate.getElem?_filterMap_zipIdx
    (fun record : SingleRecordBitArray × ℕ => recordHasSBucketChunk sBucket record.1 record.2)
    _ i pieceOffset encodedChunkUsed

/-- The chunk at position `loc` of the plot: its s-bucket's start, plus the records before it
with a chunk in the s-bucket. -/
theorem getElem?_plotChunks (loc sBucket pieceOffset : ℕ) (encodedChunkUsed : Bool) :
    m.plotChunks[loc]? = some (sBucket, pieceOffset, encodedChunkUsed) ↔
      sBucket < numSBuckets ∧
        ∃ record, (m.encodedRecordChunksUsed.zip m.numEncodedRecordChunks)[pieceOffset]? =
            some record ∧
          recordHasSBucketChunk sBucket record.1 record.2 = some encodedChunkUsed ∧
          loc = m.chunksBefore sBucket +
            ((m.encodedRecordChunksUsed.zip m.numEncodedRecordChunks).take pieceOffset).countP
              fun record => (recordHasSBucketChunk sBucket record.1 record.2).isSome := by
  rw [plotChunks, Enumerate.getElem?_flatMap_range_pair]
  simp only [getElem?_sBucketRecords, chunksBefore]
  constructor
  · rintro ⟨inRange, i, ⟨record, found, chunk, rfl⟩, rfl⟩
    exact ⟨inRange, record, found, chunk, rfl⟩
  · rintro ⟨inRange, record, found, chunk, rfl⟩
    exact ⟨inRange, _, ⟨record, found, chunk, rfl⟩, rfl⟩

/-- The chunks the walk of `iter_record_chunk_to_plot` finds for a record, before it stops at
`NUM_CHUNKS`: those of the plot at the record's piece offset, at their positions. -/
theorem mem_filterMap_plotChunks (pieceOffset sBucket loc : ℕ) (encodedChunkUsed : Bool) :
    (sBucket, encodedChunkUsed, loc) ∈ m.plotChunks.zipIdx.filterMap (fun chunk =>
        if chunk.1.2.1 = pieceOffset then some (chunk.1.1, chunk.1.2.2, chunk.2) else none) ↔
      m.plotChunks[loc]? = some (sBucket, pieceOffset, encodedChunkUsed) := by
  simp only [List.mem_filterMap, List.mem_zipIdx_iff_getElem?, Option.ite_none_right_eq_some,
    Option.some.injEq, Prod.exists, Prod.mk.injEq]
  constructor
  · rintro ⟨sBucket', pieceOffset', encodedChunkUsed', loc', found, rfl, rfl, rfl, rfl⟩
    exact found
  · intro found
    exact ⟨sBucket, pieceOffset, encodedChunkUsed, loc, found, rfl, rfl, rfl, rfl⟩

/-- The walk finds a record's chunk once in each s-bucket where it has one. -/
theorem length_filterMap_plotChunks (pieceOffset : ℕ) :
    (m.plotChunks.zipIdx.filterMap (fun chunk =>
        if chunk.1.2.1 = pieceOffset then some (chunk.1.1, chunk.1.2.2, chunk.2) else none)).length
      =
      (List.range numSBuckets).countP fun sBucket =>
        ((m.encodedRecordChunksUsed.zip m.numEncodedRecordChunks)[pieceOffset]?.bind
          fun record => recordHasSBucketChunk sBucket record.1 record.2).isSome := by
  have byChunk : m.plotChunks.zipIdx.countP (fun chunk => (if chunk.1.2.1 = pieceOffset then
      some (chunk.1.1, chunk.1.2.2, chunk.2) else none).isSome) =
        m.plotChunks.countP fun chunk => chunk.2.1 = pieceOffset := by
    calc m.plotChunks.zipIdx.countP (fun chunk => (if chunk.1.2.1 = pieceOffset then
          some (chunk.1.1, chunk.1.2.2, chunk.2) else none).isSome)
        = m.plotChunks.zipIdx.countP (fun chunk => chunk.1.2.1 = pieceOffset) := by
          apply List.countP_congr
          intro chunk _
          split <;> simp_all
      _ = (m.plotChunks.zipIdx.map Prod.fst).countP (fun chunk => chunk.2.1 = pieceOffset) := by
          rw [List.countP_map]
          rfl
      _ = m.plotChunks.countP fun chunk => chunk.2.1 = pieceOffset := by
          rw [List.zipIdx_map_fst]
  rw [List.length_filterMap_eq_countP, byChunk, plotChunks, List.countP_flatMap,
    ← Enumerate.sum_map_ite_eq_countP]
  -- in each s-bucket the record's piece offset occurs once or not at all
  apply congrArg List.sum
  apply List.map_congr_left
  intro sBucket _
  rw [Function.comp_apply, List.countP_map, sBucketRecords]
  exact Enumerate.countP_filterMap_zipIdx_index
    (fun record : SingleRecordBitArray × ℕ => recordHasSBucketChunk sBucket record.1 record.2) _
    pieceOffset

theorem length_sBucketRecords_le (sBucket : ℕ) :
    (m.sBucketRecords sBucket).length ≤ m.encodedRecordChunksUsed.length := by
  calc (m.sBucketRecords sBucket).length
      ≤ (m.encodedRecordChunksUsed.zip m.numEncodedRecordChunks).zipIdx.length :=
        List.length_filterMap_le _ _
    _ ≤ m.encodedRecordChunksUsed.length := by simp

/-- The offsets `s_bucket_offsets` computes from `s_bucket_sizes` are where the s-buckets start:
the sizes are counted `as u16` without loss, since no s-bucket holds more chunks than there are
records. -/
theorem getElem?_sBucketOffsets {piecesInSector : UInt16} (consistent : m.Consistent piecesInSector)
    (sBucket : ℕ) :
    (SectorMetadata.mk m.sBucketSizes).sBucketOffsets[sBucket]? =
      if sBucket < numSBuckets then some (m.chunksBefore sBucket) else none := by
  have exact : ∀ t, (m.sBucketRecords t).length % 2 ^ 16 = (m.sBucketRecords t).length := by
    intro t
    apply Nat.mod_eq_of_lt
    have := m.length_sBucketRecords_le t
    have := piecesInSector.toNat_lt
    rw [consistent.length_records] at *
    omega
  rw [SectorMetadata.sBucketOffsets, getElem?_sBucketOffsetsFrom, sBucketSizes, List.length_map,
    List.length_range]
  split_ifs with inRange
  · rw [← List.map_take, List.take_range, Nat.min_eq_left inRange.le, Nat.zero_add, chunksBefore]
    simp only [exact]
  · rfl

/-- With at most `NUM_CHUNKS` chunks per record the walk never stops early: it finds every chunk
of the record. -/
theorem mem_iterRecordChunkToPlot {piecesInSector : UInt16}
    (consistent : m.Consistent piecesInSector)
    (bounded : ∀ bitArray ∈ m.encodedRecordChunksUsed, bitArray.countOnes ≤ numChunks)
    (pieceOffset sBucket loc : ℕ) (encodedChunkUsed : Bool) :
    (sBucket, encodedChunkUsed, loc) ∈ m.iterRecordChunkToPlot pieceOffset ↔
      m.plotChunks[loc]? = some (sBucket, pieceOffset, encodedChunkUsed) := by
  have found : (m.plotChunks.zipIdx.filterMap (fun chunk =>
      if chunk.1.2.1 = pieceOffset then some (chunk.1.1, chunk.1.2.2, chunk.2) else none)).length
        ≤
        numChunks := by
    rw [length_filterMap_plotChunks, consistent.zip_eq, List.getElem?_map]
    cases record : m.encodedRecordChunksUsed[pieceOffset]? with
    | none => simp
    | some bitArray =>
      have chunks := recordChunks_of_countOnes_le bitArray
        (bounded bitArray (List.mem_of_getElem? record))
      simp only [Option.map_some, Option.bind_some]
      exact chunks.count.le
  rw [iterRecordChunkToPlot, List.take_of_length_le found, mem_filterMap_plotChunks]

/-- An s-bucket holds a chunk of each record that has one there. -/
theorem length_sBucketRecords (sBucket : ℕ) :
    (m.sBucketRecords sBucket).length =
      (m.encodedRecordChunksUsed.zip m.numEncodedRecordChunks).countP
        fun record => (recordHasSBucketChunk sBucket record.1 record.2).isSome := by
  rw [sBucketRecords, List.length_filterMap_eq_countP]
  calc (m.encodedRecordChunksUsed.zip m.numEncodedRecordChunks).zipIdx.countP
        (fun record => ((recordHasSBucketChunk sBucket record.1.1 record.1.2).map
          (Prod.mk record.2)).isSome)
      = ((m.encodedRecordChunksUsed.zip m.numEncodedRecordChunks).zipIdx.map Prod.fst).countP
          fun record => (recordHasSBucketChunk sBucket record.1 record.2).isSome := by
        rw [List.countP_map]
        apply List.countP_congr
        intro record _
        simp
    _ = _ := by rw [List.zipIdx_map_fst]

/-- The plot holds `NUM_CHUNKS` chunks of every record. -/
theorem length_plotChunks {piecesInSector : UInt16} (consistent : m.Consistent piecesInSector)
    (bounded : ∀ bitArray ∈ m.encodedRecordChunksUsed, bitArray.countOnes ≤ numChunks) :
    m.plotChunks.length = piecesInSector.toNat * numChunks := by
  have perRecord : ∀ bitArray ∈ m.encodedRecordChunksUsed,
      (List.range numSBuckets).countP (fun sBucket =>
        (recordHasSBucketChunk sBucket bitArray bitArray.countOnes).isSome) = numChunks :=
    fun bitArray mem => (recordChunks_of_countOnes_le bitArray (bounded bitArray mem)).count
  -- count the chunks record by record instead of s-bucket by s-bucket
  calc m.plotChunks.length
      = ((List.range numSBuckets).map fun sBucket =>
          (m.encodedRecordChunksUsed.zip m.numEncodedRecordChunks).countP
            fun record => (recordHasSBucketChunk sBucket record.1 record.2).isSome).sum := by
        simp only [plotChunks, List.length_flatMap, List.length_map, length_sBucketRecords]
    _ = ((m.encodedRecordChunksUsed.zip m.numEncodedRecordChunks).map fun record =>
          (List.range numSBuckets).countP fun sBucket =>
            (recordHasSBucketChunk sBucket record.1 record.2).isSome).sum :=
        Enumerate.sum_map_countP_comm _ _ _
    _ = ((m.encodedRecordChunksUsed.zip m.numEncodedRecordChunks).map fun _ => numChunks).sum := by
        apply congrArg List.sum
        apply List.map_congr_left
        intro record mem
        rw [consistent.zip_eq] at mem
        obtain ⟨bitArray, inRecords, rfl⟩ := List.mem_map.1 mem
        exact perRecord bitArray inRecords
    _ = piecesInSector.toNat * numChunks := by
        rw [List.map_const', List.sum_replicate, consistent.zip_eq, List.length_map,
          consistent.length_records, smul_eq_mul]

/-- For the record at `pieceOffset`, `par_iter_record_chunk_to_plot` gives in each s-bucket where
it has a chunk the number of records before it with one there, and whether its chunk is
encoded. -/
theorem parIterRecordChunkToPlot_eq {piecesInSector : UInt16}
    (consistent : m.Consistent piecesInSector) {pieceOffset : ℕ} {bitArray : SingleRecordBitArray}
    (record : m.encodedRecordChunksUsed[pieceOffset]? = some bitArray) :
    ∃ items, m.parIterRecordChunkToPlot pieceOffset = some items ∧
      ∀ sBucket chunkOffset encodedChunkUsed,
        items[sBucket]? = some (some (chunkOffset, encodedChunkUsed)) ↔
          sBucket < numSBuckets ∧
            recordHasSBucketChunk sBucket bitArray bitArray.countOnes = some encodedChunkUsed ∧
            chunkOffset =
              ((m.encodedRecordChunksUsed.zip m.numEncodedRecordChunks).take pieceOffset).countP
                fun record => (recordHasSBucketChunk sBucket record.1 record.2).isSome := by
  have counted : m.numEncodedRecordChunks[pieceOffset]? = some bitArray.countOnes := by
    rw [consistent.counted, List.getElem?_map, record]
    rfl
  refine ⟨_, by rw [parIterRecordChunkToPlot, record, counted]; rfl, ?_⟩
  intro sBucket chunkOffset encodedChunkUsed
  rw [List.getElem?_map]
  by_cases inRange : sBucket < numSBuckets
  · rw [List.getElem?_range inRange, Option.map_some, Option.some.injEq]
    cases chunk : recordHasSBucketChunk sBucket bitArray bitArray.countOnes with
    | none => simp
    | some encodedChunkUsed' =>
      simp only [Option.bind_eq_bind, Option.bind_some, Option.some.injEq, Prod.mk.injEq, inRange,
        true_and]
      constructor
      · rintro ⟨rfl, rfl⟩
        exact ⟨rfl, rfl⟩
      · rintro ⟨rfl, rfl⟩
        exact ⟨rfl, rfl⟩
  · rw [List.getElem?_eq_none (by simpa using inRange)]
    simp [inRange]

/-- The two ways of locating the chunks of the record at `pieceOffset` agree: the walk finds a
chunk at the offset of its s-bucket plus the count `par_iter_record_chunk_to_plot` gives for
it, and every location is inside the plot of `pieces_in_sector` records. -/
structure PlotLocations (piecesInSector : UInt16) (pieceOffset : ℕ) : Prop where
  agree : ∃ items, m.parIterRecordChunkToPlot pieceOffset = some items ∧
    ∀ sBucket encodedChunkUsed loc,
      (sBucket, encodedChunkUsed, loc) ∈ m.iterRecordChunkToPlot pieceOffset ↔
        ∃ chunkOffset sBucketOffset,
          items[sBucket]? = some (some (chunkOffset, encodedChunkUsed)) ∧
          (SectorMetadata.mk m.sBucketSizes).sBucketOffsets[sBucket]? = some sBucketOffset ∧
          loc = sBucketOffset + chunkOffset
  inPlot : ∀ sBucket encodedChunkUsed loc,
    (sBucket, encodedChunkUsed, loc) ∈ m.iterRecordChunkToPlot pieceOffset →
      loc < piecesInSector.toNat * numChunks

theorem plotLocations {piecesInSector : UInt16} (consistent : m.Consistent piecesInSector)
    (bounded : ∀ bitArray ∈ m.encodedRecordChunksUsed, bitArray.countOnes ≤ numChunks)
    {pieceOffset : ℕ} (inSector : pieceOffset < piecesInSector.toNat) :
    m.PlotLocations piecesInSector pieceOffset := by
  have inRange : pieceOffset < m.encodedRecordChunksUsed.length := by
    rw [consistent.length_records]
    exact inSector
  obtain ⟨bitArray, record⟩ :
      ∃ bitArray, m.encodedRecordChunksUsed[pieceOffset]? = some bitArray :=
    ⟨_, List.getElem?_eq_getElem inRange⟩
  have paired : (m.encodedRecordChunksUsed.zip m.numEncodedRecordChunks)[pieceOffset]? =
      some (bitArray, bitArray.countOnes) := by
    rw [consistent.zip_eq, List.getElem?_map, record]
    rfl
  obtain ⟨items, par, found⟩ := m.parIterRecordChunkToPlot_eq consistent record
  refine ⟨⟨items, par, ?_⟩, ?_⟩
  · intro sBucket encodedChunkUsed loc
    rw [mem_iterRecordChunkToPlot m consistent bounded, getElem?_plotChunks, paired]
    constructor
    · rintro ⟨inBuckets, _, same, chunk, rfl⟩
      obtain rfl := Option.some.inj same
      exact ⟨_, _, (found _ _ _).2 ⟨inBuckets, chunk, rfl⟩,
        by rw [getElem?_sBucketOffsets m consistent, if_pos inBuckets], rfl⟩
    · rintro ⟨chunkOffset, sBucketOffset, item, offset, rfl⟩
      obtain ⟨inBuckets, chunk, rfl⟩ := (found _ _ _).1 item
      rw [getElem?_sBucketOffsets m consistent, if_pos inBuckets, Option.some.injEq] at offset
      exact ⟨inBuckets, _, rfl, chunk, by rw [offset]⟩
  · intro sBucket encodedChunkUsed loc mem
    rw [mem_iterRecordChunkToPlot m consistent bounded] at mem
    rw [← length_plotChunks m consistent bounded]
    exact (List.getElem?_eq_some_iff.1 mem).1

/-- No two chunks of the plot share a location. -/
theorem iterRecordChunkToPlot_location_injective {piecesInSector : UInt16}
    (consistent : m.Consistent piecesInSector)
    (bounded : ∀ bitArray ∈ m.encodedRecordChunksUsed, bitArray.countOnes ≤ numChunks)
    {pieceOffset₁ pieceOffset₂ sBucket₁ sBucket₂ loc : ℕ}
    {encodedChunkUsed₁ encodedChunkUsed₂ : Bool}
    (first : (sBucket₁, encodedChunkUsed₁, loc) ∈ m.iterRecordChunkToPlot pieceOffset₁)
    (second : (sBucket₂, encodedChunkUsed₂, loc) ∈ m.iterRecordChunkToPlot pieceOffset₂) :
    pieceOffset₁ = pieceOffset₂ ∧ sBucket₁ = sBucket₂ := by
  rw [mem_iterRecordChunkToPlot m consistent bounded] at first second
  rw [first, Option.some.injEq, Prod.mk.injEq, Prod.mk.injEq] at second
  exact ⟨second.2.1, second.1⟩

end Locations

section Bytes

/-- Cutting the bytes of records back into records gives the records. -/
theorem recordBitArrays_flatMap :
    ∀ bitArrays : List SingleRecordBitArray,
      recordBitArrays bitArrays.length (bitArrays.flatMap SingleRecordBitArray.bytes) = bitArrays
  | [] => rfl
  | bitArray :: bitArrays => by
    have enough : singleRecordBitArraySize ≤
        (bitArray.bytes ++ bitArrays.flatMap SingleRecordBitArray.bytes).length := by
      simp [bitArray.length_bytes]
    rw [List.length_cons, List.flatMap_cons, recordBitArrays, dif_pos enough]
    refine congrArg₂ List.cons ?_ ?_
    · ext1
      exact List.take_left' bitArray.length_bytes
    · rw [List.drop_left' bitArray.length_bytes]
      exact recordBitArrays_flatMap bitArrays

theorem length_flatMap_bytes (bitArrays : List SingleRecordBitArray) :
    (bitArrays.flatMap SingleRecordBitArray.bytes).length =
      singleRecordBitArraySize * bitArrays.length := by
  rw [List.length_flatMap]
  have each : ∀ bitArray ∈ bitArrays, bitArray.bytes.length = singleRecordBitArraySize :=
    fun bitArray _ => bitArray.length_bytes
  rw [List.map_congr_left each, List.map_const', List.sum_replicate, smul_eq_mul, Nat.mul_comm]

variable (blake3Hash : List UInt8 → Vector UInt8 blake3HashSize)

/-- `encode_into` writes the bytes of the records and their checksum into an output of the size
for the number of records. -/
theorem encodeInto_eq {piecesInSector : UInt16} {m : SectorContentsMap}
    (consistent : m.Consistent piecesInSector) (output : List UInt8)
    (sized : output.length = encodedSize piecesInSector) :
    m.encodeInto blake3Hash output =
      .ok (m.encodedRecordChunksUsed.flatMap SingleRecordBitArray.bytes ++
        (blake3Hash (m.encodedRecordChunksUsed.flatMap SingleRecordBitArray.bytes)).toList) := by
  have sameCount : UInt16.ofNat m.encodedRecordChunksUsed.length = piecesInSector := by
    rw [consistent.length_records, UInt16.ofNat_toNat]
  simp [encodeInto, sameCount, sized]

/-- Decoding what `encode_into` wrote comes down to the count check of each record: the
checksum is that of the bytes it covers, and the bytes are cut back into the records. -/
theorem fromBytes_encoded {piecesInSector : UInt16} (bitArrays : List SingleRecordBitArray)
    (counted : bitArrays.length = piecesInSector.toNat) :
    fromBytes blake3Hash (bitArrays.flatMap SingleRecordBitArray.bytes ++
        (blake3Hash (bitArrays.flatMap SingleRecordBitArray.bytes)).toList) piecesInSector =
      (bitArrays.mapM checkNumEncodedRecordChunks >>= fun numEncodedRecordChunks =>
        pure ⟨numEncodedRecordChunks, bitArrays⟩) := by
  set slice := bitArrays.flatMap SingleRecordBitArray.bytes with sliceEq
  have sliceLength : slice.length = singleRecordBitArraySize * piecesInSector.toNat := by
    rw [sliceEq, length_flatMap_bytes, counted]
  have length : (slice ++ (blake3Hash slice).toList).length = encodedSize piecesInSector := by
    simp [sliceLength, encodedSize]
  have split : (slice ++ (blake3Hash slice).toList).splitAt
      (encodedSize piecesInSector - blake3HashSize) = (slice, (blake3Hash slice).toList) := by
    have covered : encodedSize piecesInSector - blake3HashSize = slice.length := by
      rw [sliceLength, encodedSize, Nat.add_sub_cancel]
    rw [List.splitAt_eq, covered, List.take_left' rfl, List.drop_left' rfl]
  have records : recordBitArrays piecesInSector.toNat slice = bitArrays := by
    rw [sliceEq, ← counted, recordBitArrays_flatMap]
  simp only [fromBytes, ensure, length, split, records, if_true, Except.ok_bind]

/-- `from_bytes` decodes what `encode_into` encodes, when no record has more than `NUM_CHUNKS`
bits set. -/
theorem fromBytes_encodeInto {piecesInSector : UInt16} {m : SectorContentsMap}
    (consistent : m.Consistent piecesInSector)
    (bounded : ∀ bitArray ∈ m.encodedRecordChunksUsed, bitArray.countOnes ≤ numChunks)
    (output : List UInt8) (sized : output.length = encodedSize piecesInSector) :
    ∃ bytes, m.encodeInto blake3Hash output = .ok bytes ∧
      fromBytes blake3Hash bytes piecesInSector = .ok m := by
  have counts : m.encodedRecordChunksUsed.mapM checkNumEncodedRecordChunks =
      .ok m.numEncodedRecordChunks := by
    rw [consistent.counted]
    apply mapM_eq_ok_map
    intro bitArray mem
    simp [checkNumEncodedRecordChunks, Nat.not_lt.2 (bounded bitArray mem)]
  refine ⟨_, encodeInto_eq blake3Hash consistent output sized, ?_⟩
  rw [fromBytes_encoded blake3Hash _ consistent.length_records, counts]
  rfl

end Bytes

section Agree

/-- The chunk locations of a map of `pieces_in_sector` records agree: each record has
`NUM_CHUNKS` chunks, its set bits and its first unset s-buckets; the two ways of locating them
agree, inside the plot; no two chunks share a location; and the map survives encoding. -/
structure ChunkLocationsAgree (blake3Hash : List UInt8 → Vector UInt8 blake3HashSize)
    (piecesInSector : UInt16) (m : SectorContentsMap) : Prop where
  recordChunks : ∀ pieceOffset < piecesInSector.toNat, ∃ bitArray,
    m.encodedRecordChunksUsed[pieceOffset]? = some bitArray ∧
      m.numEncodedRecordChunks[pieceOffset]? = some bitArray.countOnes ∧
      RecordChunks bitArray bitArray.countOnes
  plotLocations : ∀ pieceOffset < piecesInSector.toNat, m.PlotLocations piecesInSector pieceOffset
  distinct : ∀ pieceOffset₁ pieceOffset₂ sBucket₁ sBucket₂ loc
    (encodedChunkUsed₁ encodedChunkUsed₂ : Bool),
    (sBucket₁, encodedChunkUsed₁, loc) ∈ m.iterRecordChunkToPlot pieceOffset₁ →
      (sBucket₂, encodedChunkUsed₂, loc) ∈ m.iterRecordChunkToPlot pieceOffset₂ →
        pieceOffset₁ = pieceOffset₂ ∧ sBucket₁ = sBucket₂
  roundTrip : ∀ output : List UInt8, output.length = encodedSize piecesInSector →
    ∃ bytes, m.encodeInto blake3Hash output = .ok bytes ∧
      fromBytes blake3Hash bytes piecesInSector = .ok m

/-- A map built by `new` and `EncodedChunksUsed` in which no record has more than `NUM_CHUNKS`
bits set locates its chunks consistently. -/
theorem sector_contents_map_chunk_locations_agree
    (blake3Hash : List UInt8 → Vector UInt8 blake3HashSize) {piecesInSector : UInt16}
    {m : SectorContentsMap} (reachable : m.Reachable piecesInSector)
    (bounded : ∀ bitArray ∈ m.encodedRecordChunksUsed, bitArray.countOnes ≤ numChunks) :
    m.ChunkLocationsAgree blake3Hash piecesInSector := by
  have consistent := reachable.consistent
  refine ⟨?_, fun _ inSector => m.plotLocations consistent bounded inSector,
    fun _ _ _ _ _ _ _ first second =>
      m.iterRecordChunkToPlot_location_injective consistent bounded first second,
    fromBytes_encodeInto blake3Hash consistent bounded⟩
  intro pieceOffset inSector
  have inRange : pieceOffset < m.encodedRecordChunksUsed.length := by
    rw [consistent.length_records]
    exact inSector
  refine ⟨_, List.getElem?_eq_getElem inRange, ?_,
    recordChunks_of_countOnes_le _ (bounded _ (List.getElem_mem inRange))⟩
  rw [consistent.counted, List.getElem?_map, List.getElem?_eq_getElem inRange]
  rfl

/-- Two records written through `EncodedChunksUsed`: the first with four bits of every byte
set, `NUM_CHUNKS` in all, the second with three, so that a quarter of its chunks are unencoded. -/
example :
    let allEncoded : SingleRecordBitArray :=
      ⟨List.replicate singleRecordBitArraySize 0x0F, List.length_replicate⟩
    let someEncoded : SingleRecordBitArray :=
      ⟨List.replicate singleRecordBitArraySize 0x07, List.length_replicate⟩
    let m : SectorContentsMap := ⟨[numChunks, 24576], [allEncoded, someEncoded]⟩
    m.ChunkLocationsAgree (fun _ => Vector.replicate blake3HashSize 0) 2 := by
  intro allEncoded someEncoded m
  have full : allEncoded.countOnes = numChunks := by
    rw [countOnes_replicate, singleRecordBitArraySize_eq]
    rfl
  have threeQuarters : someEncoded.countOnes = 24576 := by
    rw [countOnes_replicate, singleRecordBitArraySize_eq]
    rfl
  have first : (SectorContentsMap.new 2).writeEncodedChunksUsed 0 allEncoded =
      some ⟨[numChunks, 0], [allEncoded, SingleRecordBitArray.default]⟩ := by
    simp [writeEncodedChunksUsed, SectorContentsMap.new, full, sBucketMax, numSBuckets_eq,
      numChunks]
  have reachable : m.Reachable 2 := by
    refine .write 1 someEncoded (.write 0 allEncoded .new (by simp [SectorContentsMap.new]) first)
      (by simp) ?_
    simp [writeEncodedChunksUsed, threeQuarters, sBucketMax, numSBuckets_eq, m, numChunks]
  have bounded : ∀ written ∈ m.encodedRecordChunksUsed, written.countOnes ≤ numChunks := by
    intro written mem
    rcases List.mem_pair.1 mem with rfl | rfl
    · rw [full]
    · rw [threeQuarters]
      decide
  exact sector_contents_map_chunk_locations_agree _ reachable bounded

end Agree

/-- `EncodedChunksUsed` lets a record have more than `NUM_CHUNKS` bits set, up to
`SBucket::MAX`: written into a map of one record, such a record has a chunk at every set bit,
more than `NUM_CHUNKS` in all, and `from_bytes` rejects its encoding, for any checksum. -/
theorem sector_contents_map_overfull_record (bitArray : SingleRecordBitArray)
    (overfull : numChunks < bitArray.countOnes) (fits : bitArray.countOnes ≤ sBucketMax) :
    let m : SectorContentsMap := ⟨[bitArray.countOnes], [bitArray]⟩
    m.Reachable 1 ∧
      (List.range numSBuckets).countP
        (fun sBucket => (recordHasSBucketChunk sBucket bitArray bitArray.countOnes).isSome) =
          bitArray.countOnes ∧
      ∀ (blake3Hash : List UInt8 → Vector UInt8 blake3HashSize) (output : List UInt8),
        output.length = encodedSize 1 → ∃ bytes, m.encodeInto blake3Hash output = .ok bytes ∧
          fromBytes blake3Hash bytes 1 =
            .error (.invalidEncodedRecordChunks bitArray.countOnes numChunks) := by
  intro m
  have reachable : m.Reachable 1 := by
    refine .write 0 bitArray .new (by simp [SectorContentsMap.new]) ?_
    simp [writeEncodedChunksUsed, SectorContentsMap.new, fits, m]
  -- past `NUM_CHUNKS` no unset s-bucket is used, so the chunks are the set bits
  have encodedOnly : ∀ sBucket,
      (recordHasSBucketChunk sBucket bitArray bitArray.countOnes).isSome =
        bitArray.bit sBucket := by
    intro sBucket
    rw [isSome_recordHasSBucketChunk, Nat.sub_eq_zero_of_le overfull.le]
    cases bitArray.bit sBucket <;> simp
  refine ⟨reachable, ?_, ?_⟩
  · simp only [encodedOnly]
    rfl
  · intro blake3Hash output sized
    refine ⟨_, encodeInto_eq blake3Hash reachable.consistent output sized, ?_⟩
    rw [fromBytes_encoded blake3Hash [bitArray] rfl]
    simp [checkNumEncodedRecordChunks, overfull]

/-- Five bits of every byte set: `40960`, past `NUM_CHUNKS = 32768` and within `SBucket::MAX`. -/
theorem sector_contents_map_overfull_record_five_bits :
    let bitArray : SingleRecordBitArray :=
      ⟨List.replicate singleRecordBitArraySize 0x1F, List.length_replicate⟩
    numChunks < bitArray.countOnes ∧ bitArray.countOnes ≤ sBucketMax ∧
    let m : SectorContentsMap := ⟨[bitArray.countOnes], [bitArray]⟩
    m.Reachable 1 ∧
      (List.range numSBuckets).countP
        (fun sBucket => (recordHasSBucketChunk sBucket bitArray bitArray.countOnes).isSome) =
          bitArray.countOnes ∧
      ∀ (blake3Hash : List UInt8 → Vector UInt8 blake3HashSize) (output : List UInt8),
        output.length = encodedSize 1 → ∃ bytes, m.encodeInto blake3Hash output = .ok bytes ∧
          fromBytes blake3Hash bytes 1 =
            .error (.invalidEncodedRecordChunks bitArray.countOnes numChunks) := by
  intro bitArray
  have overfull : bitArray.countOnes = 40960 := by
    rw [countOnes_replicate, singleRecordBitArraySize_eq]
    rfl
  have past : numChunks < bitArray.countOnes := by
    rw [overfull]
    decide
  have fits : bitArray.countOnes ≤ sBucketMax := by
    rw [overfull, sBucketMax, numSBuckets_eq]
    decide
  exact ⟨past, fits, sector_contents_map_overfull_record bitArray past fits⟩

end SectorContentsMap

end Subspace.FarmerComponents

