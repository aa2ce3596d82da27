import Subspace.Archiving.Reconstructor

/-!
# Lemmas about the archiver

Encoded sizes of the items, one lemma per branch of the loop of `produce_segment` and per
outcome of `produce_segment`, and the two equations of the loop of `add_block`. The proofs about
runs of the archiver cite these and never unfold the archiver's definitions.

`Archiver.archiveBlocks` runs `add_block` over a list of blocks.
-/

namespace Subspace.Archiving

variable {Commitment Witness : Type}

/-! ## Encoded sizes -/

@[simp]
theorem SegmentItem.encodedSize_padding : SegmentItem.padding.encodedSize = 1 := rfl

@[simp]
theorem SegmentItem.encodedSize_block (bytes : List UInt8) (objectMapping : List BlockObject) :
    (SegmentItem.block bytes objectMapping).encodedSize = 1 + compactLen bytes.length + bytes.length :=
  encodedSize_byteItem 1 bytes

@[simp]
theorem SegmentItem.encodedSize_blockStart (bytes : List UInt8) (objectMapping : List BlockObject) :
    (SegmentItem.blockStart bytes objectMapping).encodedSize =
      1 + compactLen bytes.length + bytes.length :=
  encodedSize_byteItem 2 bytes

@[simp]
theorem SegmentItem.encodedSize_blockContinuation (bytes : List UInt8)
    (objectMapping : List BlockObject) :
    (SegmentItem.blockContinuation bytes objectMapping).encodedSize =
      1 + compactLen bytes.length + bytes.length :=
  encodedSize_byteItem 3 bytes

@[simp]
theorem ArchivedBlockProgress.length_encode_complete :
    ArchivedBlockProgress.complete.encode.length = 1 := rfl

@[simp]
theorem ArchivedBlockProgress.length_encode_partialBytes (bytes : ℕ) :
    (ArchivedBlockProgress.partialBytes bytes).encode.length = 5 := by
  simp [ArchivedBlockProgress.encode]

@[simp]
theorem SegmentItem.encodedSize_parentSegmentHeader_eq (header : SegmentHeader) :
    (SegmentItem.parentSegmentHeader header).encodedSize =
      94 + header.lastArchivedBlock.archivedProgress.encode.length := by
  simp only [encodedSize, encode, List.length_cons, SegmentHeader.length_encode]
  omega

@[simp]
theorem SegmentItem.encodedSize_withoutMapping (item : SegmentItem) :
    item.withoutMapping.encodedSize = item.encodedSize := by
  cases item <;> rfl

theorem Segment.length_encode (items : List SegmentItem) :
    (Segment.encode items).length = 1 + bufferSize items := by
  induction items with
  | nil => rfl
  | cons item items ih =>
    simp only [encode, List.flatMap_cons, List.length_cons, List.length_append] at ih ⊢
    simp only [bufferSize_cons, SegmentItem.encodedSize]
    omega

/-- The compact length of a byte string of `2 ^ 14` to `2 ^ 30` bytes takes four bytes, as for
any block of about a segment. -/
theorem compactLen_of_lt {n : ℕ} (large : 2 ^ 14 ≤ n) (below : n < 2 ^ 30) : compactLen n = 4 := by
  unfold compactLen
  rw [if_neg (by omega), if_neg (by omega), if_pos below]

/-! ## The loop of `produce_segment` -/

section Fill

variable {segment rest : List SegmentItem} {segmentSize : ℕ} {last : LastArchivedBlock}
  {item : SegmentItem}

theorem fillSegment_nil_of_lt (small : segmentSize < recordedHistorySegmentSize - 2) :
    fillSegment segment segmentSize last [] = .exhausted segmentSize := by
  rw [fillSegment, if_pos small]

theorem fillSegment_of_le (full : recordedHistorySegmentSize - 2 ≤ segmentSize)
    (buffer : List SegmentItem) :
    fillSegment segment segmentSize last buffer = .full segment segmentSize last buffer := by
  cases buffer with
  | nil => rw [fillSegment, if_neg (by omega)]
  | cons item rest => rw [fillSegment, if_neg (by omega)]

/-- An item that leaves the segment below its size, or spills over by no more than its own
bytes, is taken. -/
theorem fillSegment_cons_take (small : segmentSize < recordedHistorySegmentSize - 2)
    (taken : segmentSize + item.encodedSize < recordedHistorySegmentSize ∨
      segmentSize + item.encodedSize - recordedHistorySegmentSize ≤ item.innerBytesSize) :
    fillSegment segment segmentSize last (item :: rest) =
      fillSegment (segment ++ [item]) (segmentSize + item.encodedSize) (last.noteItem item) rest := by
  rw [fillSegment, if_pos small, if_neg (by omega)]

/-- An item whose spill over exceeds its bytes is left in the buffer and ends the segment. -/
theorem fillSegment_cons_pushBack (small : segmentSize < recordedHistorySegmentSize - 2)
    (full : recordedHistorySegmentSize ≤ segmentSize + item.encodedSize)
    (spilled : item.innerBytesSize < segmentSize + item.encodedSize - recordedHistorySegmentSize) :
    fillSegment segment segmentSize last (item :: rest) =
      .full segment segmentSize last (item :: rest) := by
  rw [fillSegment, if_pos small, if_pos ⟨full, spilled⟩]

end Fill

/-! ## `produce_segment` -/

section Produce

variable {coding : ArchiverCoding Commitment Witness} {incremental : Bool}
  (archiver : Archiver Commitment) {segment rest : List SegmentItem} {segmentSize : ℕ}
  {last : LastArchivedBlock}

theorem Archiver.produceSegment_of_exhausted
    (filled : fillSegment [] 1 archiver.lastArchivedBlock archiver.buffer = .exhausted segmentSize) :
    archiver.produceSegment coding incremental =
      (none, { archiver with
        incrementalRecordCommitments :=
          if incremental ∧ rawRecordSize * 2 ≤
              segmentSize - archiver.incrementalRecordCommitments.length * rawRecordSize then
            updateRecordCommitments coding archiver.incrementalRecordCommitments archiver.buffer
          else archiver.incrementalRecordCommitments }) := by
  unfold Archiver.produceSegment
  rw [show (Segment.encode []).length = 1 from rfl, filled]

/-- Below two records the incremental commitments are not brought up to date, and the
archiver is left as it was. -/
theorem Archiver.produceSegment_of_exhausted_lt
    (filled : fillSegment [] 1 archiver.lastArchivedBlock archiver.buffer = .exhausted segmentSize)
    (small : segmentSize < rawRecordSize * 2) :
    archiver.produceSegment coding incremental = (none, archiver) := by
  rw [Archiver.produceSegment_of_exhausted archiver filled, if_neg (by omega)]

/-- A segment that is not over its size closes with its last block complete. -/
theorem Archiver.produceSegment_of_full_le
    (filled : fillSegment [] 1 archiver.lastArchivedBlock archiver.buffer =
      .full segment segmentSize last rest)
    (within : segmentSize ≤ recordedHistorySegmentSize) :
    archiver.produceSegment coding incremental =
      (some segment, { archiver with buffer := rest, lastArchivedBlock := last.setComplete }) := by
  unfold Archiver.produceSegment
  rw [show (Segment.encode []).length = 1 from rfl, filled]
  dsimp only
  rw [if_neg (by omega)]

/-- A segment over its size closes with its last item split. -/
theorem Archiver.produceSegment_of_full_lt
    (filled : fillSegment [] 1 archiver.lastArchivedBlock archiver.buffer =
      .full segment segmentSize last rest)
    (spilled : recordedHistorySegmentSize < segmentSize) :
    archiver.produceSegment coding incremental =
      let split := spillLastItem (segmentSize - recordedHistorySegmentSize) segment last rest
      (some split.1, { archiver with buffer := split.2.2, lastArchivedBlock := split.2.1 }) := by
  unfold Archiver.produceSegment
  rw [show (Segment.encode []).length = 1 from rfl, filled]
  dsimp only
  rw [if_pos (by omega)]

end Produce

/-! ## The loop of `add_block` -/

section Segments

variable {coding : ArchiverCoding Commitment Witness} {incremental : Bool}
  {archiver archiver' : Archiver Commitment} {segment : List SegmentItem}

theorem Archiver.produceSegments_of_none
    (produced : archiver.produceSegment coding incremental = (none, archiver')) :
    archiver.produceSegments coding incremental = ([], [], archiver') := by
  rw [Archiver.produceSegments]
  split
  · rename_i result same
    rw [produced] at same
    cases same
    rfl
  · rename_i result same
    rw [produced] at same
    cases same

theorem Archiver.produceSegments_of_some
    (produced : archiver.produceSegment coding incremental = (some segment, archiver')) :
    archiver.produceSegments coding incremental =
      let mapped := produceObjectMappings archiver'.segmentIndex segment
      let next := archiver'.produceArchivedSegment coding mapped.2
      let more := next.2.produceSegments coding incremental
      (next.1 :: more.1, mapped.1 ++ more.2.1, more.2.2) := by
  rw [Archiver.produceSegments]
  split
  · rename_i result same
    rw [produced] at same
    cases same
  · rename_i result same
    rw [produced] at same
    cases same
    rfl

end Segments

/-- The header of an archived segment goes to the front of the buffer. -/
theorem Archiver.produceArchivedSegment_buffer (coding : ArchiverCoding Commitment Witness)
    (archiver : Archiver Commitment) (segment : List SegmentItem) :
    (archiver.produceArchivedSegment coding segment).2.buffer =
      .parentSegmentHeader (archiver.produceArchivedSegment coding segment).1.segmentHeader ::
        archiver.buffer := rfl

/-- A buffer that holds only the header of the last segment makes no segment. -/
theorem Archiver.produceSegments_of_header (coding : ArchiverCoding Commitment Witness)
    (incremental : Bool) {archiver : Archiver Commitment} {header : SegmentHeader}
    (onlyHeader : archiver.buffer = [.parentSegmentHeader header]) :
    archiver.produceSegments coding incremental = ([], [], archiver) := by
  have headerSize := SegmentItem.encodedSize_parentSegmentHeader header
  have sizeEq := recordedHistorySegmentSize_eq
  have recordSize : rawRecordSize = 1015808 := rfl
  have filled : fillSegment [] 1 archiver.lastArchivedBlock archiver.buffer =
      .exhausted (1 + (SegmentItem.parentSegmentHeader header).encodedSize) := by
    rw [onlyHeader, fillSegment_cons_take (by omega) (by omega), fillSegment_nil_of_lt (by omega)]
  exact Archiver.produceSegments_of_none
    (Archiver.produceSegment_of_exhausted_lt archiver filled (by omega))

/-- `add_block` as the loop of segments over the buffer with the block at its end. -/
theorem Archiver.addBlock_of_produceSegments {coding : ArchiverCoding Commitment Witness}
    (archiver : Archiver Commitment) {last : Archiver Commitment} {bytes : List UInt8} {objectMapping : List BlockObject}
    {incremental : Bool} {segments : List (NewArchivedSegment Commitment Witness)}
    {objects : List GlobalObject}
    (produced : ({ archiver with buffer := archiver.buffer ++ [.block bytes objectMapping] } :
      Archiver Commitment).produceSegments coding incremental = (segments, objects, last)) :
    archiver.addBlock coding bytes objectMapping incremental =
      ({ archivedSegments := segments
         objectMapping := objects ++ (produceObjectMappings last.segmentIndex last.buffer).1 },
        { last with buffer := (produceObjectMappings last.segmentIndex last.buffer).2 }) := by
  unfold Archiver.addBlock
  dsimp only
  rw [produced]

/-- `add_block` of every block in turn: the outcome of each call and the archiver after the
last. -/
def Archiver.archiveBlocks (coding : ArchiverCoding Commitment Witness)
    (archiver : Archiver Commitment) :
    List (List UInt8 × List BlockObject × Bool) →
      List (ArchiveBlockOutcome Commitment Witness) × Archiver Commitment
  | [] => ([], archiver)
  | (bytes, objectMapping, incremental) :: rest =>
    let added := archiver.addBlock coding bytes objectMapping incremental
    let more := added.2.archiveBlocks coding rest
    (added.1 :: more.1, more.2)

end Subspace.Archiving
