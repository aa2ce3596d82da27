import Subspace.Archiving.ArchiverSpec

/-!
# Archiving, then reconstructing

`reconstructSegment_produceArchivedSegment`: with all pieces of an archived segment present,
`reconstruct_segment` gives back the items of the segment, without their object mappings,
followed by one padding item per byte of zero padding. The source records are the even pieces,
and together they are the segment's encoding padded to `RecordedHistorySegment::SIZE`.

`add_segment` then numbers the blocks. The header of the previous segment comes first in every
segment after the first, and when that header records its last block as complete, `add_segment`
adds the partial block it holds under the number it counts from, `0`, even when it holds none.
`reconstructed_blocks_of_complete_segment` is such a run: two blocks, both archived whole in the
first two segments. The first block fills the first segment to its last byte, so the next
header records it complete, and the reconstructor returns the empty block `(0, [])` between
`(0, block₀)` and `(1, block₁)`.
-/

namespace Subspace.Archiving

variable {α β : Type} {Commitment Witness : Type}

/-! ## Records -/

@[simp]
theorem length_chunksExact (size : ℕ) (items : List α) :
    (chunksExact size items).length = items.length / size := by
  simp [chunksExact]

theorem chunksExact_eq_cons {size : ℕ} {items : List α} (positive : 0 < size)
    (long : size ≤ items.length) :
    chunksExact size items = items.take size :: chunksExact size (items.drop size) := by
  unfold chunksExact
  have count : items.length / size = (items.drop size).length / size + 1 := by
    rw [List.length_drop]
    exact Nat.div_eq_sub_div positive long
  rw [count, List.range_succ_eq_map, List.map_cons, List.map_map]
  congr 1
  · simp
  · apply List.map_congr_left
    intro index _
    simp only [Function.comp_apply, List.drop_drop, Nat.succ_mul]
    rw [Nat.add_comm size]

/-- Whole chunks put back together are the list they were cut from. -/
theorem flatten_chunksExact {size : ℕ} (positive : 0 < size) :
    ∀ (count : ℕ) (items : List α), items.length = count * size →
      (chunksExact size items).flatten = items
  | 0, items, empty => by
    rw [Nat.zero_mul, List.length_eq_zero_iff] at empty
    subst empty
    simp [chunksExact]
  | count + 1, items, sized => by
    have long : size ≤ items.length := by rw [sized, Nat.succ_mul]; omega
    rw [chunksExact_eq_cons positive long, List.flatten_cons,
      flatten_chunksExact positive count (items.drop size)
        (by rw [List.length_drop, sized, Nat.succ_mul]; omega),
      List.take_append_drop]

/-- The encoding of a segment padded to the segment size, as the archiver cuts it into records. -/
def Segment.padded (segment : List SegmentItem) : List UInt8 :=
  Segment.encode segment ++
    List.replicate (recordedHistorySegmentSize - (Segment.encode segment).length) 0

theorem Segment.length_padded {segment : List SegmentItem}
    (fits : (Segment.encode segment).length ≤ recordedHistorySegmentSize) :
    (Segment.padded segment).length = numRawRecords * rawRecordSize := by
  rw [Segment.padded, List.length_append, List.length_replicate]
  have size : recordedHistorySegmentSize = numRawRecords * rawRecordSize := Nat.mul_comm _ _
  omega

theorem Segment.length_rawRecords {segment : List SegmentItem}
    (fits : (Segment.encode segment).length ≤ recordedHistorySegmentSize) :
    (Segment.rawRecords segment).length = numRawRecords := by
  have padded := Segment.length_padded fits
  rw [Segment.padded] at padded
  rw [Segment.rawRecords, length_chunksExact, padded, Nat.mul_div_cancel _ (by decide)]

theorem Segment.flatten_rawRecords {segment : List SegmentItem}
    (fits : (Segment.encode segment).length ≤ recordedHistorySegmentSize) :
    (Segment.rawRecords segment).flatten = Segment.padded segment :=
  flatten_chunksExact (by decide) numRawRecords _ (Segment.length_padded fits)

/-! ## Source pieces -/

theorem everyOther_map (f : α → β) : ∀ items : List α,
    everyOther (items.map f) = (everyOther items).map f
  | [] => rfl
  | [_] => rfl
  | first :: _ :: rest => by
    simp only [List.map_cons, everyOther, everyOther_map f rest]

/-- Every other record of source and parity records interleaved is a source record. -/
theorem everyOther_interleave : ∀ (sources parities : List α), sources.length ≤ parities.length →
    everyOther ((sources.zip parities).flatMap fun (source, parity) => [source, parity]) = sources
  | [], _, _ => rfl
  | _ :: _, [], long => by simp at long
  | source :: sources, parity :: parities, long => by
    simp only [List.zip_cons_cons, List.flatMap_cons, List.cons_append, List.nil_append,
      everyOther]
    rw [everyOther_interleave sources parities (by simpa using long)]

/-- Source and parity records interleaved: two records per source record. -/
theorem length_interleave : ∀ (sources parities : List α), sources.length ≤ parities.length →
    ((sources.zip parities).flatMap fun (source, parity) => [source, parity]).length =
      2 * sources.length
  | [], _, _ => rfl
  | _ :: _, [], long => by simp at long
  | source :: sources, parity :: parities, long => by
    simp only [List.zip_cons_cons, List.flatMap_cons, List.length_append, List.length_cons,
      List.length_nil]
    rw [length_interleave sources parities (by simpa using long)]
    omega

theorem mapM_id_map_some : ∀ items : List α, (items.map some).mapM id = some items
  | [] => rfl
  | first :: rest => by
    simp [List.mapM_cons, mapM_id_map_some rest]

section Pieces

variable (coding : ArchiverCoding Commitment Witness) (archiver : Archiver Commitment)
  {segment : List SegmentItem}

/-- The records of pieces numbered in order, whatever their witnesses. -/
theorem map_record_zipIdx (pairs : List (List UInt8 × Commitment))
    (witness : (List UInt8 × Commitment) × ℕ → Witness) :
    (pairs.zipIdx.map fun entry =>
      ({ record := entry.1.1, commitment := entry.1.2, witness := witness entry } :
        Piece Commitment Witness)).map Piece.record = pairs.map Prod.fst := by
  rw [List.map_map]
  conv => rhs; rw [← List.zipIdx_map_fst 0 pairs]
  rw [List.map_map]
  rfl

/-- The records of the pieces are the source records interleaved with the parity records: the
erasure coding gives a commitment for each. -/
theorem records_produceArchivedSegment :
    (archiver.produceArchivedSegment coding segment).1.pieces.map Piece.record =
      ((Segment.rawRecords segment).zip (coding.parityRecords (Segment.rawRecords segment))).flatMap
        fun (source, parity) => [source, parity] := by
  have interleaved := length_interleave (Segment.rawRecords segment)
    (coding.parityRecords (Segment.rawRecords segment)) (Nat.le_of_eq (coding.length_parityRecords _).symm)
  -- two records and at least two commitments per source record
  have enoughCommitments :
      (((Segment.rawRecords segment).zip (coding.parityRecords (Segment.rawRecords segment))).flatMap
        fun (source, parity) => [source, parity]).length ≤
      (coding.extendCommitments (archiver.incrementalRecordCommitments ++
        ((Segment.rawRecords segment).drop archiver.incrementalRecordCommitments.length).map
          coding.commitRecord)).length := by
    rw [coding.length_extendCommitments, List.length_append, List.length_map, List.length_drop,
      interleaved]
    omega
  simp only [Archiver.produceArchivedSegment, map_record_zipIdx]
  exact List.map_fst_zip enoughCommitments

/-- With all pieces of an archived segment present, `reconstruct_segment` gives back the items
of the segment and the padding. -/
theorem reconstructSegment_produceArchivedSegment (recovery : ReconstructorCoding)
    (wellFormed : ∀ item ∈ segment, item.WellFormed)
    (fits : (Segment.encode segment).length ≤ recordedHistorySegmentSize) :
    reconstructSegment recovery ((archiver.produceArchivedSegment coding segment).1.pieces.map some) =
      .ok (segment.map SegmentItem.withoutMapping ++
        List.replicate (recordedHistorySegmentSize - (Segment.encode segment).length) .padding) := by
  have sources : (everyOther (archiver.produceArchivedSegment coding segment).1.pieces).map
      Piece.record = Segment.rawRecords segment := by
    rw [← everyOther_map, records_produceArchivedSegment coding archiver,
      everyOther_interleave _ _ (Nat.le_of_eq (coding.length_parityRecords _).symm)]
  have count : (everyOther (archiver.produceArchivedSegment coding segment).1.pieces).length =
      numRawRecords := by
    rw [← List.length_map Piece.record, sources, Segment.length_rawRecords fits]
  unfold reconstructSegment
  dsimp only
  rw [everyOther_map, List.take_of_length_le (by simp [count]), mapM_id_map_some]
  simp only [sources, count, Nat.sub_self, List.replicate_zero, List.append_nil, pure_bind]
  rw [Segment.flatten_rawRecords fits, Segment.padded, segment_decode_encode wellFormed]
  rfl

end Pieces

/-! ## Reconstructing every segment -/

/-- `add_segment` of every archived segment in turn, all pieces present: the contents of each,
or the first error. -/
def Reconstructor.addSegments (coding : ReconstructorCoding) (reconstructor : Reconstructor) :
    List (NewArchivedSegment Commitment Witness) → Except ReconstructorError (List ReconstructedContents)
  | [] => .ok []
  | segment :: rest =>
    match reconstructor.addSegment coding (segment.pieces.map some) with
    | (.error error, _) => .error error
    | (.ok contents, reconstructor) => (reconstructor.addSegments coding rest).map (contents :: ·)

/-! ## A segment that ends where its last block ends -/

section CompleteSegment

variable (coding : ArchiverCoding Commitment Witness) {block₀ block₁ : List UInt8}

/-- The archiver once block `0` has filled the first segment, before the segment is archived. -/
def firstBlockArchived : Archiver Commitment :=
  { (Archiver.new : Archiver Commitment) with lastArchivedBlock := ⟨0, .complete⟩ }

/-- The first archived segment, holding block `0` alone. -/
def firstSegment (block₀ : List UInt8) : NewArchivedSegment Commitment Witness × Archiver Commitment :=
  (firstBlockArchived : Archiver Commitment).produceArchivedSegment coding [.block block₀ []]

/-- Block `0` fills the first segment to its last byte; its header records block `0` as
complete. -/
theorem addBlock_fills_segment (incremental : Bool)
    (fills : block₀.length = recordedHistorySegmentSize - 6) :
    (Archiver.new : Archiver Commitment).addBlock coding block₀ [] incremental =
      ({ archivedSegments := [(firstSegment coding block₀).1], objectMapping := [] },
        (firstSegment coding block₀).2) := by
  have sizeEq := recordedHistorySegmentSize_eq
  have compact : compactLen block₀.length = 4 := compactLen_of_lt (by omega) (by omega)
  have blockSize : (SegmentItem.block block₀ []).encodedSize = recordedHistorySegmentSize - 1 := by
    rw [SegmentItem.encodedSize_block, compact, fills]
    omega
  let start : Archiver Commitment :=
    { (Archiver.new : Archiver Commitment) with
      buffer := (Archiver.new : Archiver Commitment).buffer ++ [.block block₀ []] }
  -- the block fills the segment to its last byte
  have filled : fillSegment [] 1 start.lastArchivedBlock start.buffer =
      .full [.block block₀ []] recordedHistorySegmentSize
        (initialLastArchivedBlock.noteItem (.block block₀ [])) [] := by
    show fillSegment [] 1 initialLastArchivedBlock [SegmentItem.block block₀ []] = _
    rw [fillSegment_cons_take (by omega) (by omega), blockSize, fillSegment_of_le (by omega),
      show 1 + (recordedHistorySegmentSize - 1) = recordedHistorySegmentSize by omega]
    rfl
  have segments : start.produceSegments coding incremental =
      ([(firstSegment coding block₀).1], [], (firstSegment coding block₀).2) := by
    rw [Archiver.produceSegments_of_some
      (Archiver.produceSegment_of_full_le start filled (Nat.le_refl _))]
    dsimp only
    rw [Archiver.produceSegments_of_header coding incremental
      (Archiver.produceArchivedSegment_buffer coding _ _)]
    rfl
  rw [Archiver.addBlock_of_produceSegments Archiver.new segments]
  rfl


/-- The second archived segment: the header of the first, then block `1`. -/
def secondSegment (block₀ block₁ : List UInt8) :
    NewArchivedSegment Commitment Witness × Archiver Commitment :=
  ({ (firstSegment coding block₀).2 with buffer := [], lastArchivedBlock := ⟨1, .complete⟩ } :
    Archiver Commitment).produceArchivedSegment coding
      [.parentSegmentHeader (firstSegment coding block₀).1.segmentHeader, .block block₁ []]

/-- Block `1` fills the rest of the second segment, after the header of the first. -/
theorem addBlock_completes_next_segment (incremental : Bool)
    (fillsNext : block₁.length = recordedHistorySegmentSize - 101) :
    (firstSegment coding block₀).2.addBlock coding block₁ [] incremental =
      ({ archivedSegments := [(secondSegment coding block₀ block₁).1], objectMapping := [] },
        (secondSegment coding block₀ block₁).2) := by
  have sizeEq := recordedHistorySegmentSize_eq
  have compact : compactLen block₁.length = 4 := compactLen_of_lt (by omega) (by omega)
  have blockSize : (SegmentItem.block block₁ []).encodedSize = recordedHistorySegmentSize - 96 := by
    rw [SegmentItem.encodedSize_block, compact, fillsNext]
    omega
  have headerSize :
      (SegmentItem.parentSegmentHeader (firstSegment coding block₀).1.segmentHeader).encodedSize =
        95 := by
    rw [SegmentItem.encodedSize_parentSegmentHeader_eq]
    rfl
  let start : Archiver Commitment :=
    { (firstSegment coding block₀).2 with
      buffer := (firstSegment coding block₀).2.buffer ++ [.block block₁ []] }
  -- the header of the first segment and block `1` fill the next segment to its last byte
  have filled : fillSegment [] 1 start.lastArchivedBlock start.buffer =
      .full [.parentSegmentHeader (firstSegment coding block₀).1.segmentHeader, .block block₁ []]
        recordedHistorySegmentSize
        ((LastArchivedBlock.mk 0 .complete).noteItem (.block block₁ [])) [] := by
    show fillSegment [] 1 ⟨0, .complete⟩
      [.parentSegmentHeader (firstSegment coding block₀).1.segmentHeader,
        SegmentItem.block block₁ []] = _
    rw [fillSegment_cons_take (by omega) (by omega), headerSize,
      fillSegment_cons_take (by omega) (by omega), blockSize, fillSegment_of_le (by omega),
      show 1 + 95 + (recordedHistorySegmentSize - 96) = recordedHistorySegmentSize by omega]
    rfl
  have segments : start.produceSegments coding incremental =
      ([(secondSegment coding block₀ block₁).1], [], (secondSegment coding block₀ block₁).2) := by
    rw [Archiver.produceSegments_of_some
      (Archiver.produceSegment_of_full_le start filled (Nat.le_refl _))]
    dsimp only
    rw [Archiver.produceSegments_of_header coding incremental
      (Archiver.produceArchivedSegment_buffer coding _ _)]
    rfl
  rw [Archiver.addBlock_of_produceSegments _ segments]
  rfl

/-- The first segment gives block `0`. -/
theorem addSegment_firstSegment (recovery : ReconstructorCoding)
    (fills : block₀.length = recordedHistorySegmentSize - 6) :
    Reconstructor.new.addSegment recovery ((firstSegment coding block₀).1.pieces.map some) =
      (.ok ⟨none, [(0, block₀)]⟩, ⟨some 0, none⟩) := by
  have sizeEq := recordedHistorySegmentSize_eq
  have compact : compactLen block₀.length = 4 := compactLen_of_lt (by omega) (by omega)
  have encodedLength :
      (Segment.encode [SegmentItem.block block₀ []]).length = recordedHistorySegmentSize := by
    rw [Segment.length_encode, bufferSize_cons, bufferSize_nil, SegmentItem.encodedSize_block,
      compact, fills]
    omega
  have wellFormed : ∀ item ∈ [SegmentItem.block block₀ []], item.WellFormed := by
    intro item member
    rw [List.mem_singleton] at member
    subst member
    show block₀.length < 2 ^ 32
    omega
  unfold Reconstructor.addSegment
  rw [firstSegment, reconstructSegment_produceArchivedSegment coding _ recovery wellFormed
    (Nat.le_of_eq encodedLength), encodedLength, Nat.sub_self, List.replicate_zero, List.append_nil]
  rfl

/-- The second segment gives the empty block `(0, [])` for the complete header, then block
`1`. -/
theorem addSegment_secondSegment (recovery : ReconstructorCoding)
    (fillsNext : block₁.length = recordedHistorySegmentSize - 101) :
    (Reconstructor.mk (some 0) none).addSegment recovery
        ((secondSegment coding block₀ block₁).1.pieces.map some) =
      (.ok ⟨some (firstSegment coding block₀).1.segmentHeader, [(0, []), (1, block₁)]⟩,
        ⟨some 1, none⟩) := by
  have sizeEq := recordedHistorySegmentSize_eq
  have compact : compactLen block₁.length = 4 := compactLen_of_lt (by omega) (by omega)
  have encodedLength :
      (Segment.encode [.parentSegmentHeader (firstSegment coding block₀).1.segmentHeader,
        SegmentItem.block block₁ []]).length = recordedHistorySegmentSize := by
    rw [Segment.length_encode, bufferSize_cons, bufferSize_cons, bufferSize_nil,
      SegmentItem.encodedSize_block, compact, fillsNext,
      SegmentItem.encodedSize_parentSegmentHeader_eq]
    show 1 + (94 + 1 + (1 + 4 + (recordedHistorySegmentSize - 101) + 0)) = _
    omega
  have wellFormed : ∀ item ∈ [.parentSegmentHeader (firstSegment coding block₀).1.segmentHeader,
      SegmentItem.block block₁ []], item.WellFormed := by
    intro item member
    simp only [List.mem_cons, List.not_mem_nil, or_false] at member
    rcases member with rfl | rfl
    · refine ⟨show (0 : ℕ) < 2 ^ 64 by decide, show (0 : ℕ) < 2 ^ 32 by decide, ?_⟩
      intro bytes isPartial
      cases isPartial
    · show block₁.length < 2 ^ 32
      omega
  unfold Reconstructor.addSegment
  rw [secondSegment, reconstructSegment_produceArchivedSegment coding _ recovery wellFormed
    (Nat.le_of_eq encodedLength), encodedLength, Nat.sub_self, List.replicate_zero, List.append_nil]
  rfl

/-- Archiving a block that fills a segment exactly, then one that fills the next, and
reconstructing both segments: the blocks come back with an empty block `(0, [])` between
them. -/
theorem reconstructed_blocks_of_complete_segment (recovery : ReconstructorCoding)
    (incremental₀ incremental₁ : Bool)
    (fills : block₀.length = recordedHistorySegmentSize - 6)
    (fillsNext : block₁.length = recordedHistorySegmentSize - 101) :
    (Reconstructor.new.addSegments recovery
        ((Archiver.new.archiveBlocks coding
          [(block₀, [], incremental₀), (block₁, [], incremental₁)]).1.flatMap
            ArchiveBlockOutcome.archivedSegments)).map
        (·.flatMap ReconstructedContents.blocks) =
      .ok [(0, block₀), (0, []), (1, block₁)] := by
  -- block `0` fills the first segment, block `1` and the first header the second
  have archived : (Archiver.new.archiveBlocks coding
      [(block₀, [], incremental₀), (block₁, [], incremental₁)]).1.flatMap
        ArchiveBlockOutcome.archivedSegments =
      [(firstSegment coding block₀).1, (secondSegment coding block₀ block₁).1] := by
    simp only [Archiver.archiveBlocks, addBlock_fills_segment coding incremental₀ fills,
      addBlock_completes_next_segment coding incremental₁ fillsNext]
    rfl
  rw [archived]
  unfold Reconstructor.addSegments
  rw [addSegment_firstSegment coding recovery fills]
  dsimp only
  unfold Reconstructor.addSegments
  rw [addSegment_secondSegment coding recovery fillsNext]
  rfl

end CompleteSegment

/-- An erasure coding and KZG scheme that commit to nothing. -/
def trivialCoding : ArchiverCoding Unit Unit where
  commitRecord _ := ()
  parityRecords records := records
  extendCommitments commitments := commitments ++ commitments
  segmentCommitment _ := FixedBytes.zero 48
  createWitness _ _ := ()
  blake3Hash _ := FixedBytes.zero 32
  length_parityRecords _ := rfl
  length_extendCommitments commitments := by
    rw [List.length_append]
    omega

theorem reconstructed_blocks_of_complete_segment_zeros :
    (Reconstructor.new.addSegments ⟨fun _ => .error ""⟩
        ((Archiver.new.archiveBlocks trivialCoding
          [(List.replicate (recordedHistorySegmentSize - 6) 0, [], false),
            (List.replicate (recordedHistorySegmentSize - 101) 0, [], false)]).1.flatMap
            ArchiveBlockOutcome.archivedSegments)).map
        (·.flatMap ReconstructedContents.blocks) =
      .ok [(0, List.replicate (recordedHistorySegmentSize - 6) 0), (0, []),
        (1, List.replicate (recordedHistorySegmentSize - 101) 0)] :=
  reconstructed_blocks_of_complete_segment trivialCoding ⟨fun _ => .error ""⟩ false false
    List.length_replicate List.length_replicate


end Subspace.Archiving
