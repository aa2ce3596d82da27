import Subspace.Archiving.Codec

/-!
# The archiver

`Archiver` of `subspace-archiving/src/archiver.rs`. Blocks are appended to a buffer of segment
items. The buffer is cut into segments of `RecordedHistorySegment::SIZE` encoded bytes
(`produce_segment`). The last item of a segment is split when it does not fit, and its tail
goes back to the buffer as a `BlockContinuation`. Each segment is cut into raw records and
erasure coded into pieces, and every record is committed to (`produce_archived_segment`). Its
header then becomes the first item of the next segment.

The erasure coding, the KZG scheme and BLAKE3 are the functions of `ArchiverCoding`; the model
commits to a raw record through `commitRecord` of its bytes. Pieces hold raw records. The
`unreachable!` arms of the source, for items the buffer never holds at that point, keep the
item as it is.

`add_block` repeats `produce_segment` while it returns a segment. `produceSegments` is total
because every segment takes more bytes out of the buffer than the header put back
(`bufferSize_produceSegment_lt`).
-/

namespace Subspace.Archiving

/-- `GlobalObject`: an object at `offset` in the raw record of piece `pieceIndex`. -/
structure GlobalObject where
  hash : Blake3Hash
  pieceIndex : ℕ
  offset : ℕ
deriving DecidableEq

/-- A piece of archived history: a record, its commitment and its witness. -/
structure Piece (Commitment Witness : Type) where
  record : List UInt8
  commitment : Commitment
  witness : Witness
deriving DecidableEq

/-- `NewArchivedSegment`. -/
structure NewArchivedSegment (Commitment Witness : Type) where
  segmentHeader : SegmentHeader
  pieces : List (Piece Commitment Witness)
deriving DecidableEq

/-- `ArchiveBlockOutcome`. -/
structure ArchiveBlockOutcome (Commitment Witness : Type) where
  archivedSegments : List (NewArchivedSegment Commitment Witness)
  objectMapping : List GlobalObject
deriving DecidableEq

/-- The erasure coding, the KZG scheme and BLAKE3 as the archiver uses them. The erasure coding
instance is configured for a segment: it gives one parity record per source record and two
record commitments per source commitment. -/
structure ArchiverCoding (Commitment Witness : Type) where
  /-- `kzg.commit(kzg.poly(scalars))` of the chunks of a raw record. -/
  commitRecord : List UInt8 → Commitment
  /-- The parity records `ErasureCoding::extend` gives, chunk by chunk, for the source records. -/
  parityRecords : List (List UInt8) → List (List UInt8)
  /-- `ErasureCoding::extend_commitments`. -/
  extendCommitments : List Commitment → List Commitment
  /-- The commitment to the polynomial over the hashes of the record commitments. -/
  segmentCommitment : List Commitment → SegmentCommitment
  /-- `kzg.create_witness(polynomial, NUM_PIECES, position)` of that polynomial. -/
  createWitness : List Commitment → ℕ → Witness
  /-- `blake3_hash`. -/
  blake3Hash : List UInt8 → Blake3Hash
  length_parityRecords : ∀ records, (parityRecords records).length = records.length
  length_extendCommitments : ∀ commitments,
    (extendCommitments commitments).length = 2 * commitments.length

/-- `Archiver`, without its erasure coding and KZG instances. -/
structure Archiver (Commitment : Type) where
  buffer : List SegmentItem
  incrementalRecordCommitments : List Commitment
  segmentIndex : ℕ
  prevSegmentHeaderHash : Blake3Hash
  lastArchivedBlock : LastArchivedBlock

/-- `INITIAL_LAST_ARCHIVED_BLOCK`: nothing of block `0` archived yet. -/
def initialLastArchivedBlock : LastArchivedBlock := ⟨0, .partialBytes 0⟩

variable {Commitment Witness : Type}

/-- `Archiver::new`. -/
def Archiver.new : Archiver Commitment :=
  ⟨[], [], 0, FixedBytes.zero 32, initialLastArchivedBlock⟩

/-! ## `produce_segment` -/

/-- The bytes of a block item, which a spill over must not exceed. -/
def SegmentItem.innerBytesSize : SegmentItem → ℕ
  | .block bytes _ | .blockStart bytes _ | .blockContinuation bytes _ => bytes.length
  | _ => 0

/-- What the loop of `produce_segment` notes of each item it takes: a block is archived whole
until a split says otherwise, and a continuation adds its bytes to those of its block. -/
def LastArchivedBlock.noteItem (last : LastArchivedBlock) : SegmentItem → LastArchivedBlock
  | .block _ _ =>
    -- the very first block keeps the number `0`
    (if last ≠ initialLastArchivedBlock then { last with number := last.number + 1 }
      else last).setComplete
  | .blockContinuation bytes _ => last.setPartialArchived (last.partialArchived.getD 0 + bytes.length)
  | _ => last

/-- How the loop of `produce_segment` ends. -/
inductive FillOutcome
  /-- The buffer ran out below the segment size. -/
  | exhausted (segmentSize : ℕ)
  /-- The segment is full: its items, its size, the last archived block and the rest of the
  buffer. -/
  | full (segment : List SegmentItem) (segmentSize : ℕ) (lastArchivedBlock : LastArchivedBlock)
      (buffer : List SegmentItem)

/-- The loop of `produce_segment`: items are taken from the buffer while the segment is two
bytes or more below its size. An item whose spill over would exceed its own bytes (the compact
length can grow with the bytes) is left in the buffer and ends the segment. -/
def fillSegment (segment : List SegmentItem) (segmentSize : ℕ)
    (lastArchivedBlock : LastArchivedBlock) : List SegmentItem → FillOutcome
  | [] =>
    if segmentSize < recordedHistorySegmentSize - 2 then .exhausted segmentSize
    else .full segment segmentSize lastArchivedBlock []
  | item :: rest =>
    if segmentSize < recordedHistorySegmentSize - 2 then
      let grown := segmentSize + item.encodedSize
      if recordedHistorySegmentSize ≤ grown ∧
          item.innerBytesSize < grown - recordedHistorySegmentSize then
        .full segment segmentSize lastArchivedBlock (item :: rest)
      else fillSegment (segment ++ [item]) grown (lastArchivedBlock.noteItem item) rest
    else .full segment segmentSize lastArchivedBlock (item :: rest)

/-- The objects of a mapping before `splitPoint`, and those from it on with their offsets
moved to the continuation (`extract_if`). -/
def splitObjectMapping (splitPoint : ℕ) (objectMapping : List BlockObject) :
    List BlockObject × List BlockObject :=
  (objectMapping.filter (·.offset < splitPoint),
    (objectMapping.filter (splitPoint ≤ ·.offset)).map fun object =>
      { object with offset := object.offset - splitPoint })

/-- The end of `produce_segment` for a segment `spillOver` bytes over its size: its last item
keeps the bytes that fit, and the rest goes to the front of the buffer as a continuation. -/
def spillLastItem (spillOver : ℕ) (segment : List SegmentItem) (last : LastArchivedBlock)
    (buffer : List SegmentItem) : List SegmentItem × LastArchivedBlock × List SegmentItem :=
  match segment.getLast? with
  | some (.block bytes objectMapping) =>
    let splitPoint := bytes.length - spillOver
    let (kept, moved) := splitObjectMapping splitPoint objectMapping
    (segment.dropLast ++ [.blockStart (bytes.take splitPoint) kept],
      last.setPartialArchived (bytes.take splitPoint).length,
      .blockContinuation (bytes.drop splitPoint) moved :: buffer)
  | some (.blockContinuation bytes objectMapping) =>
    let splitPoint := bytes.length - spillOver
    let (kept, moved) := splitObjectMapping splitPoint objectMapping
    -- the loop counted the whole continuation as archived
    (segment.dropLast ++ [.blockContinuation (bytes.take splitPoint) kept],
      last.setPartialArchived (last.partialArchived.getD 0 - spillOver),
      .blockContinuation (bytes.drop splitPoint) moved :: buffer)
  | _ => (segment, last, buffer)

/-- `chunks_exact(size)`: the whole chunks, in order; a shorter rest is left out. -/
def chunksExact {α : Type} (size : ℕ) (items : List α) : List (List α) :=
  (List.range (items.length / size)).map fun index => (items.drop (index * size)).take size

/-- `IncrementalRecordCommitmentsProcessor`: the bytes still to skip and the bytes kept. -/
structure IncrementalRecordCommitmentsProcessor where
  skipBytes : ℕ
  buffer : List UInt8

/-- `Output::write` of the processor: bytes already committed to are skipped. -/
def IncrementalRecordCommitmentsProcessor.write (processor : IncrementalRecordCommitmentsProcessor)
    (bytes : List UInt8) : IncrementalRecordCommitmentsProcessor :=
  if bytes.length ≤ processor.skipBytes then
    { processor with skipBytes := processor.skipBytes - bytes.length }
  else { skipBytes := 0, buffer := processor.buffer ++ bytes.drop processor.skipBytes }

/-- The writes of `Segment::encode_to`: the variant byte, then each item. -/
def Segment.writes (items : List SegmentItem) : List (List UInt8) :=
  [0] :: items.map SegmentItem.encode

/-- `update_record_commitments`: the segment is encoded into a processor that skips the records
committed to already; the whole records after them are committed to when it is dropped. -/
def updateRecordCommitments (coding : ArchiverCoding Commitment Witness)
    (commitments : List Commitment) (segment : List SegmentItem) : List Commitment :=
  let processor := (Segment.writes segment).foldl IncrementalRecordCommitmentsProcessor.write
    ⟨commitments.length * rawRecordSize, []⟩
  commitments ++ (chunksExact rawRecordSize processor.buffer).map coding.commitRecord

/-- `Archiver::produce_segment`: the next segment, or `none` while the buffer is too small, in
which case the record commitments may be brought up to date. -/
def Archiver.produceSegment (coding : ArchiverCoding Commitment Witness) (incremental : Bool)
    (archiver : Archiver Commitment) : Option (List SegmentItem) × Archiver Commitment :=
  match fillSegment [] (Segment.encode []).length archiver.lastArchivedBlock archiver.buffer with
  | .exhausted segmentSize =>
    let existingCommitments := archiver.incrementalRecordCommitments.length
    let bytesCommittedTo := existingCommitments * rawRecordSize
    -- only when there are at least two records to commit to
    let commitments :=
      if incremental ∧ rawRecordSize * 2 ≤ segmentSize - bytesCommittedTo then
        updateRecordCommitments coding archiver.incrementalRecordCommitments archiver.buffer
      else archiver.incrementalRecordCommitments
    (none, { archiver with incrementalRecordCommitments := commitments })
  | .full segment segmentSize last buffer =>
    let spillOver := segmentSize - recordedHistorySegmentSize
    if 0 < spillOver then
      let (segment, last, buffer) := spillLastItem spillOver segment last buffer
      (some segment, { archiver with buffer := buffer, lastArchivedBlock := last })
    else (some segment, { archiver with buffer := buffer, lastArchivedBlock := last.setComplete })

/-! ## Object mappings and archived segments -/

/-- `segment_piece_indexes_source_first()[position]` for a source position: source pieces are
the even pieces of the segment. -/
def sourcePieceIndex (segmentIndex position : ℕ) : ℕ := segmentIndex * numPieces + 2 * position

/-- The global objects of an item that starts at `baseOffsetInSegment`: `1` byte of variant
index and the compact length come before its bytes. -/
def SegmentItem.globalObjects (segmentIndex baseOffsetInSegment : ℕ) : SegmentItem → List GlobalObject
  | .block bytes objectMapping | .blockStart bytes objectMapping
  | .blockContinuation bytes objectMapping =>
    objectMapping.map fun object =>
      let offsetInSegment := baseOffsetInSegment + 1 + compactLen bytes.length + object.offset
      { hash := object.hash
        pieceIndex := sourcePieceIndex segmentIndex (offsetInSegment / rawRecordSize)
        offset := offsetInSegment % rawRecordSize }
  | _ => []

/-- The loop of `produce_object_mappings` from the offset of its first item on. -/
def objectMappingsFrom (segmentIndex : ℕ) : ℕ → List SegmentItem → List GlobalObject
  | _, [] => []
  | baseOffsetInSegment, item :: rest =>
    item.globalObjects segmentIndex baseOffsetInSegment ++
      objectMappingsFrom segmentIndex (baseOffsetInSegment + item.encodedSize) rest

/-- `produce_object_mappings`: the global objects of the items, which are left without their
object mappings. -/
def produceObjectMappings (segmentIndex : ℕ) (items : List SegmentItem) :
    List GlobalObject × List SegmentItem :=
  (objectMappingsFrom segmentIndex (Segment.encode []).length items,
    items.map SegmentItem.withoutMapping)

/-- The raw records of a segment: its encoding padded with zeros to the segment size. -/
def Segment.rawRecords (segment : List SegmentItem) : List (List UInt8) :=
  let encoded := Segment.encode segment
  chunksExact rawRecordSize (encoded ++ List.replicate (recordedHistorySegmentSize - encoded.length) 0)

/-- `Archiver::produce_archived_segment`: pieces from the records of the segment, interleaved
with their parity records. Records already committed to incrementally are not committed to
again. -/
def Archiver.produceArchivedSegment (coding : ArchiverCoding Commitment Witness)
    (archiver : Archiver Commitment) (segment : List SegmentItem) :
    NewArchivedSegment Commitment Witness × Archiver Commitment :=
  let sourceRecords := Segment.rawRecords segment
  let records := (sourceRecords.zip (coding.parityRecords sourceRecords)).flatMap
    fun (source, parity) => [source, parity]
  let existingCommitments := archiver.incrementalRecordCommitments.length
  let commitments := archiver.incrementalRecordCommitments ++
    (sourceRecords.drop existingCommitments).map coding.commitRecord
  let recordCommitments := coding.extendCommitments commitments
  let segmentHeader : SegmentHeader :=
    { segmentIndex := archiver.segmentIndex
      segmentCommitment := coding.segmentCommitment recordCommitments
      prevSegmentHeaderHash := archiver.prevSegmentHeaderHash
      lastArchivedBlock := archiver.lastArchivedBlock }
  let pieces := (records.zip recordCommitments).zipIdx.map fun ((record, commitment), position) =>
    { record, commitment, witness := coding.createWitness recordCommitments position }
  ({ segmentHeader, pieces },
    { archiver with
      buffer := .parentSegmentHeader segmentHeader :: archiver.buffer
      incrementalRecordCommitments := []
      segmentIndex := archiver.segmentIndex + 1
      prevSegmentHeaderHash := coding.blake3Hash segmentHeader.encode })

/-! ## Termination of `add_block` -/

/-- The encoded size of the buffer. -/
def bufferSize (buffer : List SegmentItem) : ℕ := (buffer.map SegmentItem.encodedSize).sum

@[simp]
theorem bufferSize_nil : bufferSize [] = 0 := rfl

@[simp]
theorem bufferSize_cons (item : SegmentItem) (buffer : List SegmentItem) :
    bufferSize (item :: buffer) = item.encodedSize + bufferSize buffer := by
  simp [bufferSize]

@[simp]
theorem bufferSize_append (front back : List SegmentItem) :
    bufferSize (front ++ back) = bufferSize front + bufferSize back := by
  simp [bufferSize]

theorem compactLen_le_five (n : ℕ) : compactLen n ≤ 5 := by
  unfold compactLen
  split_ifs <;> omega

theorem compactLen_mono {m n : ℕ} (le : m ≤ n) : compactLen m ≤ compactLen n := by
  unfold compactLen
  split_ifs <;> omega

theorem SegmentItem.encodedSize_byteItem (index : UInt8) (bytes : List UInt8) :
    (index :: encodeBytes bytes).length = 1 + compactLen bytes.length + bytes.length := by
  simp only [List.length_cons, length_encodeBytes]
  omega

theorem SegmentItem.encodedSize_parentSegmentHeader (header : SegmentHeader) :
    (SegmentItem.parentSegmentHeader header).encodedSize ≤ 99 := by
  have progress := header.lastArchivedBlock.archivedProgress.length_encode
  simp only [encodedSize, encode, List.length_cons, SegmentHeader.length_encode]
  split at progress <;> omega

/-- An item encodes to at most `99` bytes beyond those of its block. -/
theorem SegmentItem.encodedSize_le_innerBytesSize (item : SegmentItem) :
    item.encodedSize ≤ item.innerBytesSize + 99 := by
  cases item with
  | padding => decide
  | parentSegmentHeader header => exact Nat.le_trans (encodedSize_parentSegmentHeader header) (by omega)
  | block bytes _ | blockStart bytes _ | blockContinuation bytes _ =>
    simp only [encodedSize, encode, encodedSize_byteItem, innerBytesSize]
    have := compactLen_le_five bytes.length
    omega

/-- The loop of `produce_segment` ends with a full segment taken from the front of the buffer,
of at least `SIZE - 98` bytes unless it started that full. -/
theorem fillSegment_full {segment segment' buffer rest : List SegmentItem} {segmentSize size : ℕ}
    {last last' : LastArchivedBlock}
    (filled : fillSegment segment segmentSize last buffer = .full segment' size last' rest) :
    ∃ taken, segment' = segment ++ taken ∧ buffer = taken ++ rest ∧
      size = segmentSize + bufferSize taken ∧ recordedHistorySegmentSize - 98 ≤ size := by
  induction buffer generalizing segment segmentSize last with
  | nil =>
    simp only [fillSegment] at filled
    split_ifs at filled with small
    cases filled
    exact ⟨[], by simp, by simp, by simp, by omega⟩
  | cons item buffer ih =>
    simp only [fillSegment] at filled
    split_ifs at filled with small pushedBack
    · -- the item is left in the buffer: its spill over bounds the segment from below
      cases filled
      have bound := item.encodedSize_le_innerBytesSize
      exact ⟨[], by simp, by simp, by simp, by omega⟩
    · obtain ⟨taken, rfl, rfl, rfl, full⟩ := ih filled
      exact ⟨item :: taken, by simp, by simp, by simp; omega, full⟩
    · cases filled
      exact ⟨[], by simp, by simp, by simp, by omega⟩

/-- The continuation a split puts back holds at most the bytes spilled over. -/
theorem bufferSize_spillLastItem {spillOver : ℕ} {segment segment' buffer buffer' : List SegmentItem}
    {last last' : LastArchivedBlock}
    (split : spillLastItem spillOver segment last buffer = (segment', last', buffer')) :
    bufferSize buffer' ≤ bufferSize buffer + spillOver + 6 := by
  unfold spillLastItem at split
  split at split
  case h_1 bytes objectMapping _ | h_2 bytes objectMapping _ =>
    cases split
    have short : (bytes.drop (bytes.length - spillOver)).length ≤ spillOver := by
      rw [List.length_drop]
      omega
    have compact := compactLen_le_five (bytes.drop (bytes.length - spillOver)).length
    simp only [bufferSize_cons, SegmentItem.encodedSize, SegmentItem.encode,
      SegmentItem.encodedSize_byteItem]
    omega
  case h_3 =>
    cases split
    omega

/-- `SIZE` as a number. -/
theorem recordedHistorySegmentSize_eq : recordedHistorySegmentSize = 130023424 := rfl

/-- A segment takes more bytes out of the buffer than a header puts back. -/
theorem bufferSize_produceSegment_lt {coding : ArchiverCoding Commitment Witness}
    {incremental : Bool} {archiver produced : Archiver Commitment} {segment : List SegmentItem}
    (producedSome : archiver.produceSegment coding incremental = (some segment, produced)) :
    bufferSize produced.buffer + 99 < bufferSize archiver.buffer := by
  unfold Archiver.produceSegment at producedSome
  split at producedSome
  · cases producedSome
  · rename_i fullSegment size last rest filled
    obtain ⟨taken, -, buffer, sized, full⟩ := fillSegment_full filled
    have whole : bufferSize archiver.buffer = bufferSize taken + bufferSize rest := by
      rw [buffer, bufferSize_append]
    have sizeEq := recordedHistorySegmentSize_eq
    have one : (Segment.encode []).length = 1 := rfl
    rw [one] at sized
    dsimp only at producedSome
    split_ifs at producedSome with spilled
    · -- the last item was split: its continuation is back in the buffer
      generalize split : spillLastItem (size - recordedHistorySegmentSize) fullSegment last rest =
        result at producedSome
      obtain ⟨segment', last', buffer'⟩ := result
      have putBack := bufferSize_spillLastItem split
      simp only [Prod.mk.injEq] at producedSome
      obtain ⟨-, rfl⟩ := producedSome
      dsimp only
      omega
    · simp only [Prod.mk.injEq] at producedSome
      obtain ⟨-, rfl⟩ := producedSome
      dsimp only
      omega


/-- The header a segment leaves at the front of the buffer adds at most `99` bytes. -/
theorem bufferSize_produceArchivedSegment (coding : ArchiverCoding Commitment Witness)
    (archiver : Archiver Commitment) (segment : List SegmentItem) :
    bufferSize (archiver.produceArchivedSegment coding segment).2.buffer ≤
      bufferSize archiver.buffer + 99 := by
  simp only [Archiver.produceArchivedSegment, bufferSize_cons]
  have header := SegmentItem.encodedSize_parentSegmentHeader
    { segmentIndex := archiver.segmentIndex
      segmentCommitment := coding.segmentCommitment (coding.extendCommitments
        (archiver.incrementalRecordCommitments ++ ((Segment.rawRecords segment).drop
          archiver.incrementalRecordCommitments.length).map coding.commitRecord))
      prevSegmentHeaderHash := archiver.prevSegmentHeaderHash
      lastArchivedBlock := archiver.lastArchivedBlock }
  omega

/-! ## `add_block` and `with_initial_state` -/

/-- The loop of `add_block`: segments, with the global objects of their items, while the buffer
fills them. -/
def Archiver.produceSegments (coding : ArchiverCoding Commitment Witness) (incremental : Bool)
    (archiver : Archiver Commitment) :
    List (NewArchivedSegment Commitment Witness) × List GlobalObject × Archiver Commitment :=
  match produced : archiver.produceSegment coding incremental with
  | (none, archiver) => ([], [], archiver)
  | (some segment, archiver') =>
    let (objects, segment) := produceObjectMappings archiver'.segmentIndex segment
    let next := archiver'.produceArchivedSegment coding segment
    have : bufferSize next.2.buffer < bufferSize archiver.buffer :=
      Nat.lt_of_le_of_lt (bufferSize_produceArchivedSegment coding archiver' segment)
        (bufferSize_produceSegment_lt produced)
    let (segments, moreObjects, last) := next.2.produceSegments coding incremental
    (next.1 :: segments, objects ++ moreObjects, last)
termination_by bufferSize archiver.buffer

/-- `Archiver::add_block`: the block joins the buffer, the segments it completes are archived,
and the objects still in the buffer are mapped into the next segment. -/
def Archiver.addBlock (coding : ArchiverCoding Commitment Witness) (archiver : Archiver Commitment)
    (bytes : List UInt8) (objectMapping : List BlockObject) (incremental : Bool) :
    ArchiveBlockOutcome Commitment Witness × Archiver Commitment :=
  let archiver := { archiver with buffer := archiver.buffer ++ [SegmentItem.block bytes objectMapping] }
  let (archivedSegments, objects, archiver) := archiver.produceSegments coding incremental
  let (nextObjects, buffer) := produceObjectMappings archiver.segmentIndex archiver.buffer
  ({ archivedSegments, objectMapping := objects ++ nextObjects }, { archiver with buffer })

/-- `ArchiverInstantiationError`. -/
inductive ArchiverInstantiationError
  /-- `InvalidLastArchivedBlock(bytes)`: the block is as long as its archived part. -/
  | invalidLastArchivedBlock (bytes : ℕ)
  /-- `InvalidBlockSmallSize { block_bytes, archived_block_bytes }`. -/
  | invalidBlockSmallSize (blockBytes archivedBlockBytes : ℕ)
deriving DecidableEq, Repr

/-- `Archiver::with_initial_state`: an archiver that goes on after `segmentHeader`, with the
part of its last block that was not archived yet. -/
def Archiver.withInitialState (coding : ArchiverCoding Commitment Witness)
    (segmentHeader : SegmentHeader) (encodedBlock : List UInt8) (objectMapping : List BlockObject) :
    Except ArchiverInstantiationError (Archiver Commitment) :=
  let archiver : Archiver Commitment :=
    { (Archiver.new : Archiver Commitment) with
      segmentIndex := segmentHeader.segmentIndex + 1
      prevSegmentHeaderHash := coding.blake3Hash segmentHeader.encode
      lastArchivedBlock := segmentHeader.lastArchivedBlock
      buffer := [.parentSegmentHeader segmentHeader] }
  match archiver.lastArchivedBlock.partialArchived with
  | none => .ok archiver
  | some archivedBlockBytes =>
    let encodedBlockBytes := encodedBlock.length
    if encodedBlockBytes < archivedBlockBytes then
      .error (.invalidBlockSmallSize encodedBlockBytes archivedBlockBytes)
    else if encodedBlockBytes = archivedBlockBytes then
      .error (.invalidLastArchivedBlock encodedBlockBytes)
    else
      -- the objects of the archived part are dropped, the others move with the continuation
      let objectMapping := (objectMapping.filter (archivedBlockBytes ≤ ·.offset)).map fun object =>
        { object with offset := object.offset - archivedBlockBytes }
      .ok { archiver with
        buffer := archiver.buffer ++
          [.blockContinuation (encodedBlock.drop archivedBlockBytes) objectMapping] }

end Subspace.Archiving
