import Mathlib
import Subspace.Lib.Except

/-!
# The sector contents map

`SectorContentsMap` (`subspace-farmer-components/src/sector.rs`) records, for each record of a
sector, which of its `Record::NUM_S_BUCKETS` erasure coded chunks were stored encoded: one bit
per s-bucket, in a `BitArray` of bytes, and the number of bits set. A record stores exactly
`Record::NUM_CHUNKS` chunks: the encoded ones, and as many unencoded ones, the first unset
s-buckets, as it takes to reach `NUM_CHUNKS` (`record_has_s_bucket_chunk`). The plot holds the
chunks s-bucket by s-bucket, and inside an s-bucket record by record: `iter_record_chunk_to_plot`
finds a record's chunks by walking the whole plot, `par_iter_record_chunk_to_plot` by counting
the records before it in each s-bucket, to be added to the s-bucket's offset
(`SectorMetadata::s_bucket_offsets`).

A map is built by `SectorContentsMap::new` and changed only through `EncodedChunksUsed`, whose
`drop` recounts the bits of the record it changed (`Reachable`). BLAKE3 is abstract
(`blake3Hash`). S-buckets, piece offsets and counts are `ℕ`; each is below `2 ^ 16`, where the
source's `u16` conversions are exact, and the sum of `2 ^ 16` sizes below `2 ^ 16` stays below
`2 ^ 32`, so `s_bucket_offsets` does not wrap its `u32`.
-/

namespace Subspace.FarmerComponents

/-- `Record::NUM_CHUNKS`. -/
def numChunks : ℕ := 2 ^ 15

/-- `Record::NUM_S_BUCKETS`: the chunks of a record erasure coded at rate `(1, 2)`. It is
irreducible, so that no proof unfolds a walk over all the s-buckets into its elements. -/
@[irreducible] def numSBuckets : ℕ := numChunks * 2 / 1

theorem numSBuckets_eq : numSBuckets = 2 * numChunks := by
  unfold numSBuckets
  omega

/-- `SBucket::MAX`. -/
def sBucketMax : ℕ := numSBuckets - 1

/-- `SINGLE_RECORD_BIT_ARRAY_SIZE`: one bit per s-bucket. -/
def singleRecordBitArraySize : ℕ := numSBuckets / 8

/-- `Blake3Hash::SIZE`. -/
def blake3HashSize : ℕ := 32

/-- `SingleRecordBitArray`: a bitvec `BitArray` over `SINGLE_RECORD_BIT_ARRAY_SIZE` bytes. -/
@[ext]
structure SingleRecordBitArray where
  bytes : List UInt8
  length_bytes : bytes.length = singleRecordBitArraySize
deriving DecidableEq

namespace SingleRecordBitArray

/-- `SingleRecordBitArray::default()`: no bit set. -/
def default : SingleRecordBitArray :=
  ⟨List.replicate singleRecordBitArraySize 0, List.length_replicate⟩

/-- `record_bitfields[i]`: bit `i % 8` of byte `i / 8`, the `Lsb0` order of `BitArray`. -/
def bit (bitArray : SingleRecordBitArray) (i : ℕ) : Bool :=
  (bitArray.bytes.getD (i / 8) 0).toNat.testBit (i % 8)

/-- `record_bitfields[..s].count_ones()`. -/
def countOnesBelow (bitArray : SingleRecordBitArray) (s : ℕ) : ℕ :=
  (List.range s).countP bitArray.bit

/-- `count_ones()`. -/
def countOnes (bitArray : SingleRecordBitArray) : ℕ :=
  bitArray.countOnesBelow numSBuckets

end SingleRecordBitArray

/-- `SectorContentsMap`. -/
structure SectorContentsMap where
  numEncodedRecordChunks : List ℕ
  encodedRecordChunksUsed : List SingleRecordBitArray
deriving DecidableEq

/-- `SectorContentsMapFromBytesError`. -/
inductive SectorContentsMapFromBytesError
  | invalidBytesLength (expected actual : ℕ)
  | invalidEncodedRecordChunks (actual max : ℕ)
  | checksumMismatch
deriving DecidableEq, Repr

/-- `SectorContentsMapEncodeIntoError`. -/
inductive SectorContentsMapEncodeIntoError
  | invalidBytesLength (expected actual : ℕ)
deriving DecidableEq, Repr

/-- `SectorContentsMapIterationError`. -/
inductive SectorContentsMapIterationError
  | sBucketOutOfRange (provided max : ℕ)
deriving DecidableEq, Repr

/-- `record_has_s_bucket_chunk`: `some true` for an encoded chunk, `some false` for one of the
first `NUM_CHUNKS - num_encoded_record_chunks` unset s-buckets, stored unencoded. -/
def recordHasSBucketChunk (sBucket : ℕ) (recordBitfields : SingleRecordBitArray)
    (numEncodedRecordChunks : ℕ) : Option Bool :=
  if recordBitfields.bit sBucket then some true
  else if numEncodedRecordChunks = numChunks then none
  else
    let encodedBefore := recordBitfields.countOnesBelow sBucket
    let unencodedBefore := sBucket - encodedBefore
    let unencodedTotal := numChunks - numEncodedRecordChunks
    if unencodedBefore < unencodedTotal then some false else none

namespace SectorContentsMap

/-- `SectorContentsMap::new`. -/
def new (piecesInSector : UInt16) : SectorContentsMap :=
  ⟨List.replicate piecesInSector.toNat 0,
    List.replicate piecesInSector.toNat SingleRecordBitArray.default⟩

/-- Writing the bits of the record at `pieceOffset` through its `EncodedChunksUsed` and
dropping it: `drop` recounts the bits set and panics (`none`) above `SBucket::MAX`. -/
def writeEncodedChunksUsed (m : SectorContentsMap) (pieceOffset : ℕ)
    (bitArray : SingleRecordBitArray) : Option SectorContentsMap :=
  let numEncodedRecordChunks := bitArray.countOnes
  if numEncodedRecordChunks ≤ sBucketMax then
    some ⟨m.numEncodedRecordChunks.set pieceOffset numEncodedRecordChunks,
      m.encodedRecordChunksUsed.set pieceOffset bitArray⟩
  else none

/-- The maps of `pieces_in_sector` records: `new`, then records written through
`iter_record_bitfields_mut`. -/
inductive Reachable (piecesInSector : UInt16) : SectorContentsMap → Prop
  | new : Reachable piecesInSector (.new piecesInSector)
  | write {m m' : SectorContentsMap} (pieceOffset : ℕ) (bitArray : SingleRecordBitArray) :
      Reachable piecesInSector m → pieceOffset < m.encodedRecordChunksUsed.length →
        m.writeEncodedChunksUsed pieceOffset bitArray = some m' → Reachable piecesInSector m'

/-- `SectorContentsMap::encoded_size`. -/
def encodedSize (piecesInSector : UInt16) : ℕ :=
  singleRecordBitArraySize * piecesInSector.toNat + blake3HashSize

/-- The records of `as_chunks::<SINGLE_RECORD_BIT_ARRAY_SIZE>()`, as many as the `count`
default records they are zipped with; the length check before guarantees that many. -/
def recordBitArrays : ℕ → List UInt8 → List SingleRecordBitArray
  | 0, _ => []
  | count + 1, bytes =>
    if enough : singleRecordBitArraySize ≤ bytes.length then
      ⟨bytes.take singleRecordBitArraySize, by simp [enough]⟩ ::
        recordBitArrays count (bytes.drop singleRecordBitArraySize)
    else []

/-- The closure of `from_bytes` that counts the bits of a record read back, at most
`NUM_CHUNKS`. -/
def checkNumEncodedRecordChunks (encodedRecordChunksUsed : SingleRecordBitArray) :
    Except SectorContentsMapFromBytesError ℕ :=
  let numEncodedRecordChunks := encodedRecordChunksUsed.countOnes
  if numEncodedRecordChunks > numChunks then
    .error (.invalidEncodedRecordChunks numEncodedRecordChunks numChunks)
  else .ok numEncodedRecordChunks

variable (blake3Hash : List UInt8 → Vector UInt8 blake3HashSize)

/-- `SectorContentsMap::from_bytes`. -/
def fromBytes (bytes : List UInt8) (piecesInSector : UInt16) :
    Except SectorContentsMapFromBytesError SectorContentsMap := do
  ensure (bytes.length = encodedSize piecesInSector)
    (.invalidBytesLength (encodedSize piecesInSector) bytes.length)
  let (singleRecordsBitArrays, expectedChecksum) := bytes.splitAt (bytes.length - blake3HashSize)
  ensure ((blake3Hash singleRecordsBitArrays).toList = expectedChecksum) .checksumMismatch
  let encodedRecordChunksUsed := recordBitArrays piecesInSector.toNat singleRecordsBitArrays
  let numEncodedRecordChunks ← encodedRecordChunksUsed.mapM checkNumEncodedRecordChunks
  pure ⟨numEncodedRecordChunks, encodedRecordChunksUsed⟩

/-- `SectorContentsMap::encode_into`: the new contents of `output`, the records' bytes and their
checksum. The length is checked at the number of records `as u16`. -/
def encodeInto (m : SectorContentsMap) (output : List UInt8) :
    Except SectorContentsMapEncodeIntoError (List UInt8) :=
  let expected := encodedSize (UInt16.ofNat m.encodedRecordChunksUsed.length)
  if output.length ≠ expected then .error (.invalidBytesLength expected output.length)
  else
    let slice := m.encodedRecordChunksUsed.flatMap SingleRecordBitArray.bytes
    .ok (slice ++ (blake3Hash slice).toList)

/-- The records of `iter_s_bucket_records` for an s-bucket in range: the piece offset of each
record with a chunk in the s-bucket, and whether the chunk is encoded. -/
def sBucketRecords (m : SectorContentsMap) (sBucket : ℕ) : List (ℕ × Bool) :=
  (m.encodedRecordChunksUsed.zip m.numEncodedRecordChunks).zipIdx.filterMap fun record =>
    (recordHasSBucketChunk sBucket record.1.1 record.1.2).map (Prod.mk record.2)

/-- `SectorContentsMap::iter_s_bucket_records`. -/
def iterSBucketRecords (m : SectorContentsMap) (sBucket : ℕ) :
    Except SectorContentsMapIterationError (List (ℕ × Bool)) :=
  if sBucket ≥ numSBuckets then .error (.sBucketOutOfRange sBucket numSBuckets)
  else .ok (m.sBucketRecords sBucket)

/-- `SectorContentsMap::s_bucket_sizes`: the records of each s-bucket, counted `as u16`. -/
def sBucketSizes (m : SectorContentsMap) : List ℕ :=
  (List.range numSBuckets).map fun sBucket => (m.sBucketRecords sBucket).length % 2 ^ 16

/-- The chunks of the plot in the order of `iter_record_chunk_to_plot`, s-bucket by s-bucket:
the s-bucket, the piece offset of the record, and whether the chunk is encoded. -/
def plotChunks (m : SectorContentsMap) : List (ℕ × ℕ × Bool) :=
  (List.range numSBuckets).flatMap fun sBucket => (m.sBucketRecords sBucket).map (Prod.mk sBucket)

/-- `SectorContentsMap::iter_record_chunk_to_plot`: the chunks of the record at `pieceOffset`,
each with its s-bucket, whether it is encoded, and its position in the walk over all the
chunks of the plot. -/
def iterRecordChunkToPlot (m : SectorContentsMap) (pieceOffset : ℕ) : List (ℕ × Bool × ℕ) :=
  (m.plotChunks.zipIdx.filterMap fun chunk =>
    if chunk.1.2.1 = pieceOffset then some (chunk.1.1, chunk.1.2.2, chunk.2) else none).take
      numChunks

/-- `SectorContentsMap::par_iter_record_chunk_to_plot`, for each s-bucket: the number of records
before the one at `pieceOffset` with a chunk in the s-bucket, and whether its own chunk there
is encoded. Indexing the record panics (`none`) past the last one. -/
def parIterRecordChunkToPlot (m : SectorContentsMap) (pieceOffset : ℕ) :
    Option (List (Option (ℕ × Bool))) := do
  let recordBitfields ← m.encodedRecordChunksUsed[pieceOffset]?
  let numEncodedRecordChunks ← m.numEncodedRecordChunks[pieceOffset]?
  some ((List.range numSBuckets).map fun sBucket => do
    let encodedChunkUsed ← recordHasSBucketChunk sBucket recordBitfields numEncodedRecordChunks
    let chunkOffset := ((m.encodedRecordChunksUsed.zip m.numEncodedRecordChunks).take
      pieceOffset).countP fun record => (recordHasSBucketChunk sBucket record.1 record.2).isSome
    some (chunkOffset, encodedChunkUsed))

end SectorContentsMap

/-- `SectorMetadata`, of which only the s-bucket sizes are read here. -/
structure SectorMetadata where
  sBucketSizes : List ℕ

/-- The offsets of `s_bucket_offsets` from `baseOffset` on: each s-bucket starts where the ones
before it end. -/
def sBucketOffsetsFrom : ℕ → List ℕ → List ℕ
  | _, [] => []
  | baseOffset, sBucketSize :: rest =>
    baseOffset :: sBucketOffsetsFrom (baseOffset + sBucketSize) rest

/-- `SectorMetadata::s_bucket_offsets`. -/
def SectorMetadata.sBucketOffsets (metadata : SectorMetadata) : List ℕ :=
  sBucketOffsetsFrom 0 metadata.sBucketSizes

end Subspace.FarmerComponents
