import Mathlib

/-!
# The SCALE codec of archived segments

The archiver stores a segment as its SCALE encoding (`Segment::encode_to` in
`subspace-archiving/src/archiver.rs`): a variant byte, then every item in its derived
encoding, an index byte followed by the item's fields. The reconstructor reads a segment back
with `Segment::decode`, which decodes items until the input ends, so the zero bytes that pad a
segment to `RecordedHistorySegment::SIZE` come back as `SegmentItem::Padding`.

This module models the encoders and decoders of `SegmentItem` and of `SegmentHeader`
(`subspace-core-primitives/src/segments.rs`), and of the SCALE integers they use: `u32` and
`u64` in little-endian order and the compact length in front of a `Vec<u8>`. The main result is
the round trip `segment_decode_encode`: decoding an encoded segment followed by zero padding
gives back its items followed by padding items, with their object mappings dropped, since the
encoding skips them.

Integers are natural numbers. A header whose fields do not fit their widths fails
`SegmentHeader.WellFormed`, and a byte string of `2 ^ 32` bytes or more fails
`SegmentItem.WellFormed`.
-/

namespace Subspace.Archiving

/-- `ScalarBytes::SAFE_BYTES`. -/
def safeBytes : ℕ := 31
/-- `RawRecord::NUM_CHUNKS`. -/
def rawRecordNumChunks : ℕ := 2 ^ 15
/-- `RawRecord::SIZE`. -/
def rawRecordSize : ℕ := safeBytes * rawRecordNumChunks
/-- `RecordedHistorySegment::NUM_RAW_RECORDS`. -/
def numRawRecords : ℕ := 128
/-- `RecordedHistorySegment::SIZE`. -/
def recordedHistorySegmentSize : ℕ := rawRecordSize * numRawRecords
/-- `ArchivedHistorySegment::NUM_PIECES`: a source and a parity piece per record. -/
def numPieces : ℕ := 2 * numRawRecords

/-! ## Integers and byte strings -/

/-- `encode_to` of a `width`-byte unsigned integer: little-endian, truncated to the width. -/
def encodeLe : ℕ → ℕ → List UInt8
  | 0, _ => []
  | width + 1, n => UInt8.ofNat n :: encodeLe width (n / 256)

/-- `decode` of a `width`-byte unsigned integer, `none` when the input ends first. -/
def decodeLe : ℕ → List UInt8 → Option (ℕ × List UInt8)
  | 0, input => some (0, input)
  | _ + 1, [] => none
  | width + 1, byte :: rest =>
    (decodeLe width rest).map fun (high, remaining) => (byte.toNat + 256 * high, remaining)

@[simp]
theorem length_encodeLe (width n : ℕ) : (encodeLe width n).length = width := by
  induction width generalizing n with
  | zero => rfl
  | succ width ih => simp [encodeLe, ih]

theorem decodeLe_encodeLe (width n : ℕ) (rest : List UInt8) :
    decodeLe width (encodeLe width n ++ rest) = some (n % 256 ^ width, rest) := by
  induction width generalizing n with
  | zero => simp [encodeLe, decodeLe, Nat.mod_one]
  | succ width ih =>
    simp only [encodeLe, List.cons_append, decodeLe, ih, Option.map_some, UInt8.toNat_ofNat']
    -- the low byte and the high part are the two digits of `n % 256 ^ (width + 1)`
    have digits : n % 256 ^ (width + 1) = n % 256 + 256 * (n / 256 % 256 ^ width) := by
      rw [Nat.pow_succ', Nat.mod_mul]
    rw [digits]

theorem decodeLe_length_le {width : ℕ} {input remaining : List UInt8} {n : ℕ}
    (decoded : decodeLe width input = some (n, remaining)) : remaining.length ≤ input.length := by
  induction width generalizing input n with
  | zero =>
    simp only [decodeLe, Option.some.injEq, Prod.mk.injEq] at decoded
    rw [decoded.2]
  | succ width ih =>
    cases input with
    | nil => simp [decodeLe] at decoded
    | cons byte rest =>
      simp only [decodeLe, Option.map_eq_some_iff, Prod.exists, Prod.mk.injEq] at decoded
      obtain ⟨high, rest', inner, -, rfl⟩ := decoded
      have shorter := ih inner
      simp only [List.length_cons]
      omega

/-- `Compact::<u32>::compact_len`. -/
def compactLen (n : ℕ) : ℕ :=
  if n < 2 ^ 6 then 1 else if n < 2 ^ 14 then 2 else if n < 2 ^ 30 then 4 else 5

/-- `Compact::<u32>::encode_to`: the two low bits of the first byte give the number of bytes. -/
def encodeCompact (n : ℕ) : List UInt8 :=
  if n < 2 ^ 6 then encodeLe 1 (n * 4)
  else if n < 2 ^ 14 then encodeLe 2 (n * 4 + 1)
  else if n < 2 ^ 30 then encodeLe 4 (n * 4 + 2)
  else 3 :: encodeLe 4 n

/-- `Compact::<u32>::decode`, by the mode in the two low bits of the first byte. -/
def decodeCompact : List UInt8 → Option (ℕ × List UInt8)
  | [] => none
  | first :: rest =>
    if first.toNat % 4 = 0 then some (first.toNat / 4, rest)
    else if first.toNat % 4 = 1 then
      (decodeLe 2 (first :: rest)).map fun (x, remaining) => (x / 4, remaining)
    else if first.toNat % 4 = 2 then
      (decodeLe 4 (first :: rest)).map fun (x, remaining) => (x / 4, remaining)
    else if first.toNat / 4 = 0 then decodeLe 4 rest
    else none

@[simp]
theorem length_encodeCompact (n : ℕ) : (encodeCompact n).length = compactLen n := by
  unfold encodeCompact compactLen
  split_ifs <;> simp

/-- The first byte of a little-endian encoding is the number modulo 256. -/
theorem encodeLe_succ_append (width m : ℕ) (rest : List UInt8) :
    encodeLe (width + 1) m ++ rest = UInt8.ofNat m :: (encodeLe width (m / 256) ++ rest) := rfl

theorem decodeCompact_encodeCompact {n : ℕ} (fits : n < 2 ^ 32) (rest : List UInt8) :
    decodeCompact (encodeCompact n ++ rest) = some (n, rest) := by
  unfold encodeCompact
  split_ifs with single double quad
  · -- mode 0: the number in the six high bits of one byte
    rw [encodeLe_succ_append, decodeCompact, UInt8.toNat_ofNat', if_pos (by omega)]
    simp only [encodeLe, List.nil_append, Option.some.injEq, Prod.mk.injEq, and_true]
    omega
  · -- mode 1: two bytes
    rw [encodeLe_succ_append, decodeCompact, UInt8.toNat_ofNat', if_neg (by omega),
      if_pos (by omega), ← encodeLe_succ_append, decodeLe_encodeLe]
    simp only [Option.map_some, Option.some.injEq, Prod.mk.injEq, and_true]
    omega
  · -- mode 2: four bytes
    rw [encodeLe_succ_append, decodeCompact, UInt8.toNat_ofNat', if_neg (by omega),
      if_neg (by omega), if_pos (by omega), ← encodeLe_succ_append, decodeLe_encodeLe]
    simp only [Option.map_some, Option.some.injEq, Prod.mk.injEq, and_true]
    omega
  · -- mode 3: the marker byte, then the number in four bytes
    have marker : (3 : UInt8).toNat = 3 := rfl
    rw [List.cons_append, decodeCompact, marker, if_neg (by omega), if_neg (by omega),
      if_neg (by omega), if_pos (by omega), decodeLe_encodeLe, Nat.mod_eq_of_lt (by omega)]

theorem decodeCompact_length_le {input remaining : List UInt8} {n : ℕ}
    (decoded : decodeCompact input = some (n, remaining)) : remaining.length ≤ input.length := by
  cases input with
  | nil => simp [decodeCompact] at decoded
  | cons first rest =>
    simp only [decodeCompact] at decoded
    split_ifs at decoded
    · -- one byte
      simp only [Option.some.injEq, Prod.mk.injEq] at decoded
      simp [← decoded.2]
    · -- two bytes
      simp only [Option.map_eq_some_iff, Prod.exists, Prod.mk.injEq] at decoded
      obtain ⟨x, rest', inner, -, rfl⟩ := decoded
      exact decodeLe_length_le inner
    · -- four bytes
      simp only [Option.map_eq_some_iff, Prod.exists, Prod.mk.injEq] at decoded
      obtain ⟨x, rest', inner, -, rfl⟩ := decoded
      exact decodeLe_length_le inner
    · -- the marker byte and four bytes
      have shorter := decodeLe_length_le decoded
      simp only [List.length_cons]
      omega

/-- `Vec::<u8>::encode_to`: the compact length, then the bytes. -/
def encodeBytes (bytes : List UInt8) : List UInt8 := encodeCompact bytes.length ++ bytes

/-- `Vec::<u8>::decode`: `none` when fewer bytes follow than the length says. -/
def decodeBytes (input : List UInt8) : Option (List UInt8 × List UInt8) :=
  (decodeCompact input).bind fun (length, rest) =>
    if length ≤ rest.length then some (rest.take length, rest.drop length) else none

@[simp]
theorem length_encodeBytes (bytes : List UInt8) :
    (encodeBytes bytes).length = compactLen bytes.length + bytes.length := by
  simp [encodeBytes]

theorem decodeBytes_encodeBytes {bytes : List UInt8} (fits : bytes.length < 2 ^ 32)
    (rest : List UInt8) : decodeBytes (encodeBytes bytes ++ rest) = some (bytes, rest) := by
  rw [encodeBytes, List.append_assoc, decodeBytes, decodeCompact_encodeCompact fits]
  simp

theorem decodeBytes_length_le {input remaining bytes : List UInt8}
    (decoded : decodeBytes input = some (bytes, remaining)) : remaining.length ≤ input.length := by
  simp only [decodeBytes, Option.bind_eq_some_iff, Prod.exists] at decoded
  obtain ⟨length, rest, compact, fits⟩ := decoded
  split_ifs at fits
  simp only [Option.some.injEq, Prod.mk.injEq] at fits
  rw [← fits.2, List.length_drop]
  have shorter := decodeCompact_length_le compact
  omega

/-! ## Fixed-size byte arrays -/

/-- A byte array `[u8; size]`. -/
@[ext]
structure FixedBytes (size : ℕ) where
  bytes : List UInt8
  length_eq : bytes.length = size
deriving DecidableEq

/-- `Default` of a byte array: all zeros. -/
def FixedBytes.zero (size : ℕ) : FixedBytes size := ⟨List.replicate size 0, List.length_replicate⟩

/-- `Blake3Hash`. -/
abbrev Blake3Hash := FixedBytes 32
/-- `SegmentCommitment`. -/
abbrev SegmentCommitment := FixedBytes 48

/-- `decode` of `[u8; size]`: the next `size` bytes, as they are. -/
def decodeFixed (size : ℕ) (input : List UInt8) : Option (FixedBytes size × List UInt8) :=
  if fits : size ≤ input.length then
    some (⟨input.take size, by simp [fits]⟩, input.drop size)
  else none

theorem decodeFixed_bytes {size : ℕ} (array : FixedBytes size) (rest : List UInt8) :
    decodeFixed size (array.bytes ++ rest) = some (array, rest) := by
  have fits : size ≤ (array.bytes ++ rest).length := by simp [array.length_eq]
  rw [decodeFixed, dif_pos fits]
  congr 2
  · exact FixedBytes.ext (List.take_left' array.length_eq)
  · exact List.drop_left' array.length_eq

theorem decodeFixed_length_le {size : ℕ} {input remaining : List UInt8} {array : FixedBytes size}
    (decoded : decodeFixed size input = some (array, remaining)) :
    remaining.length ≤ input.length := by
  unfold decodeFixed at decoded
  split_ifs at decoded
  simp only [Option.some.injEq, Prod.mk.injEq] at decoded
  rw [← decoded.2, List.length_drop]
  omega

/-! ## Segment headers -/

/-- `ArchivedBlockProgress`. -/
inductive ArchivedBlockProgress
  /-- `Complete`: the block has been archived to its end. -/
  | complete
  /-- `Partial(bytes)`: the first `bytes` bytes of the block have been archived. -/
  | partialBytes (bytes : ℕ)
deriving DecidableEq, Repr

/-- `LastArchivedBlock`. -/
structure LastArchivedBlock where
  number : ℕ
  archivedProgress : ArchivedBlockProgress
deriving DecidableEq, Repr

/-- `LastArchivedBlock::partial_archived`. -/
def LastArchivedBlock.partialArchived (block : LastArchivedBlock) : Option ℕ :=
  match block.archivedProgress with
  | .complete => none
  | .partialBytes bytes => some bytes

/-- `LastArchivedBlock::set_partial_archived`. -/
def LastArchivedBlock.setPartialArchived (block : LastArchivedBlock) (newPartial : ℕ) :
    LastArchivedBlock :=
  { block with archivedProgress := .partialBytes newPartial }

/-- `LastArchivedBlock::set_complete`. -/
def LastArchivedBlock.setComplete (block : LastArchivedBlock) : LastArchivedBlock :=
  { block with archivedProgress := .complete }

/-- `SegmentHeader::V0`, its only variant. -/
structure SegmentHeader where
  segmentIndex : ℕ
  segmentCommitment : SegmentCommitment
  prevSegmentHeaderHash : Blake3Hash
  lastArchivedBlock : LastArchivedBlock
deriving DecidableEq

/-- The derived encoding of `ArchivedBlockProgress`: the variant index, then the field. -/
def ArchivedBlockProgress.encode : ArchivedBlockProgress → List UInt8
  | .complete => [0]
  | .partialBytes bytes => 1 :: encodeLe 4 bytes

def ArchivedBlockProgress.decode : List UInt8 → Option (ArchivedBlockProgress × List UInt8)
  | [] => none
  | index :: rest =>
    if index.toNat = 0 then some (.complete, rest)
    else if index.toNat = 1 then
      (decodeLe 4 rest).map fun (bytes, remaining) => (.partialBytes bytes, remaining)
    else none

/-- The derived encoding of `SegmentHeader`: the variant index `0` of `V0`, then its fields in
order, with `LastArchivedBlock` as its number and its progress. -/
def SegmentHeader.encode (header : SegmentHeader) : List UInt8 :=
  0 :: (encodeLe 8 header.segmentIndex ++ header.segmentCommitment.bytes ++
    header.prevSegmentHeaderHash.bytes ++ encodeLe 4 header.lastArchivedBlock.number ++
    header.lastArchivedBlock.archivedProgress.encode)

def SegmentHeader.decode : List UInt8 → Option (SegmentHeader × List UInt8)
  | [] => none
  | variant :: rest =>
    if variant.toNat = 0 then do
      let (segmentIndex, rest) ← decodeLe 8 rest
      let (segmentCommitment, rest) ← decodeFixed 48 rest
      let (prevSegmentHeaderHash, rest) ← decodeFixed 32 rest
      let (number, rest) ← decodeLe 4 rest
      let (archivedProgress, rest) ← ArchivedBlockProgress.decode rest
      pure (⟨segmentIndex, segmentCommitment, prevSegmentHeaderHash, ⟨number, archivedProgress⟩⟩,
        rest)
    else none

/-- The header's integers fit the widths the encoding gives them. -/
def SegmentHeader.WellFormed (header : SegmentHeader) : Prop :=
  header.segmentIndex < 2 ^ 64 ∧ header.lastArchivedBlock.number < 2 ^ 32 ∧
    ∀ bytes, header.lastArchivedBlock.partialArchived = some bytes → bytes < 2 ^ 32

theorem ArchivedBlockProgress.decode_encode {progress : ArchivedBlockProgress}
    (fits : ∀ bytes, progress = .partialBytes bytes → bytes < 2 ^ 32) (rest : List UInt8) :
    ArchivedBlockProgress.decode (progress.encode ++ rest) = some (progress, rest) := by
  cases progress with
  | complete => rfl
  | partialBytes bytes =>
    have one : (1 : UInt8).toNat = 1 := rfl
    have width : (256 : ℕ) ^ 4 = 2 ^ 32 := by norm_num
    rw [encode, List.cons_append, decode, one, if_neg (by decide), if_pos rfl, decodeLe_encodeLe,
      width, Nat.mod_eq_of_lt (fits bytes rfl), Option.map_some]

/-- A progress takes one byte when complete and five when partial. -/
theorem ArchivedBlockProgress.length_encode (progress : ArchivedBlockProgress) :
    progress.encode.length = match progress with | .complete => 1 | .partialBytes _ => 5 := by
  cases progress <;> rfl

theorem ArchivedBlockProgress.decode_length_le {input remaining : List UInt8}
    {progress : ArchivedBlockProgress}
    (decoded : ArchivedBlockProgress.decode input = some (progress, remaining)) :
    remaining.length ≤ input.length := by
  cases input with
  | nil => simp [decode] at decoded
  | cons index rest =>
    simp only [decode] at decoded
    split_ifs at decoded
    · simp only [Option.some.injEq, Prod.mk.injEq] at decoded
      simp [← decoded.2]
    · simp only [Option.map_eq_some_iff, Prod.exists, Prod.mk.injEq] at decoded
      obtain ⟨bytes, rest', inner, -, rfl⟩ := decoded
      have shorter := decodeLe_length_le inner
      simp only [List.length_cons]
      omega

theorem SegmentHeader.decode_encode {header : SegmentHeader} (wellFormed : header.WellFormed)
    (rest : List UInt8) : SegmentHeader.decode (header.encode ++ rest) = some (header, rest) := by
  obtain ⟨index, number, progress⟩ := wellFormed
  have progressFits : ∀ bytes, header.lastArchivedBlock.archivedProgress = .partialBytes bytes →
      bytes < 2 ^ 32 := fun bytes isPartial =>
    progress bytes (by simp [LastArchivedBlock.partialArchived, isPartial])
  have zero : (0 : UInt8).toNat = 0 := rfl
  have indexWidth : (256 : ℕ) ^ 8 = 2 ^ 64 := by norm_num
  have numberWidth : (256 : ℕ) ^ 4 = 2 ^ 32 := by norm_num
  simp only [encode, List.cons_append, List.append_assoc, decode, zero, if_pos,
    decodeLe_encodeLe, decodeFixed_bytes, ArchivedBlockProgress.decode_encode progressFits,
    indexWidth, numberWidth, Nat.mod_eq_of_lt index, Nat.mod_eq_of_lt number, Option.bind_eq_bind,
    Option.bind_some]
  rfl

theorem SegmentHeader.decode_length_le {input remaining : List UInt8} {header : SegmentHeader}
    (decoded : SegmentHeader.decode input = some (header, remaining)) :
    remaining.length ≤ input.length := by
  cases input with
  | nil => simp [decode] at decoded
  | cons variant rest =>
    simp only [decode] at decoded
    split_ifs at decoded
    simp only [Option.bind_eq_bind, Option.bind_eq_some_iff, Prod.exists, Option.pure_def,
      Option.some.injEq] at decoded
    obtain ⟨_, rest₁, step₁, _, rest₂, step₂, _, rest₃, step₃, _, rest₄, step₄, _, rest₅, step₅,
      done⟩ := decoded
    have shorter₁ := decodeLe_length_le step₁
    have shorter₂ := decodeFixed_length_le step₂
    have shorter₃ := decodeFixed_length_le step₃
    have shorter₄ := decodeLe_length_le step₄
    have shorter₅ := ArchivedBlockProgress.decode_length_le step₅
    rw [← (Prod.mk.inj done).2, List.length_cons]
    omega

/-- A header is 94 bytes long when its block is complete and 98 when it is partial. -/
theorem SegmentHeader.length_encode (header : SegmentHeader) :
    header.encode.length = 93 + header.lastArchivedBlock.archivedProgress.encode.length := by
  simp only [encode, List.length_cons, List.length_append, length_encodeLe,
    header.segmentCommitment.length_eq, header.prevSegmentHeaderHash.length_eq]
  omega

/-! ## Segment items and segments -/

/-- `BlockObject`: an object at `offset` in its block. -/
structure BlockObject where
  hash : Blake3Hash
  offset : ℕ
deriving DecidableEq

/-- `SegmentItem`. The object mappings of block items are carried along by the archiver but
not encoded (`#[codec(skip)]`). -/
inductive SegmentItem
  | padding
  | block (bytes : List UInt8) (objectMapping : List BlockObject)
  | blockStart (bytes : List UInt8) (objectMapping : List BlockObject)
  | blockContinuation (bytes : List UInt8) (objectMapping : List BlockObject)
  | parentSegmentHeader (segmentHeader : SegmentHeader)
deriving DecidableEq

/-- The derived encoding of `SegmentItem`: the codec index of the variant, then its field. -/
def SegmentItem.encode : SegmentItem → List UInt8
  | .padding => [0]
  | .block bytes _ => 1 :: encodeBytes bytes
  | .blockStart bytes _ => 2 :: encodeBytes bytes
  | .blockContinuation bytes _ => 3 :: encodeBytes bytes
  | .parentSegmentHeader segmentHeader => 4 :: segmentHeader.encode

/-- The derived decoding of `SegmentItem`; skipped object mappings come back empty. -/
def SegmentItem.decode : List UInt8 → Option (SegmentItem × List UInt8)
  | [] => none
  | index :: rest =>
    if index.toNat = 0 then some (.padding, rest)
    else if index.toNat = 1 then
      (decodeBytes rest).map fun (bytes, remaining) => (.block bytes [], remaining)
    else if index.toNat = 2 then
      (decodeBytes rest).map fun (bytes, remaining) => (.blockStart bytes [], remaining)
    else if index.toNat = 3 then
      (decodeBytes rest).map fun (bytes, remaining) => (.blockContinuation bytes [], remaining)
    else if index.toNat = 4 then
      (SegmentHeader.decode rest).map fun (header, remaining) =>
        (.parentSegmentHeader header, remaining)
    else none

/-- `encoded_size` of an item: the length of its encoding. -/
def SegmentItem.encodedSize (item : SegmentItem) : ℕ := item.encode.length

/-- The item as decoding gives it back: without its object mapping. -/
def SegmentItem.withoutMapping : SegmentItem → SegmentItem
  | .block bytes _ => .block bytes []
  | .blockStart bytes _ => .blockStart bytes []
  | .blockContinuation bytes _ => .blockContinuation bytes []
  | item => item

/-- Every length and integer of the item fits the width its encoding gives it. -/
def SegmentItem.WellFormed : SegmentItem → Prop
  | .padding => True
  | .block bytes _ | .blockStart bytes _ | .blockContinuation bytes _ => bytes.length < 2 ^ 32
  | .parentSegmentHeader segmentHeader => segmentHeader.WellFormed

theorem SegmentItem.decode_encode {item : SegmentItem} (wellFormed : item.WellFormed)
    (rest : List UInt8) : SegmentItem.decode (item.encode ++ rest) = some (item.withoutMapping, rest) := by
  have index : ∀ n : ℕ, n < 256 → (UInt8.ofNat n).toNat = n := fun n small => by
    rw [UInt8.toNat_ofNat']
    exact Nat.mod_eq_of_lt small
  cases item with
  | padding => rfl
  | block bytes mapping =>
    simp only [encode, List.cons_append, decode, show (1 : UInt8).toNat = 1 from rfl,
      decodeBytes_encodeBytes (show bytes.length < 2 ^ 32 from wellFormed), Option.map_some]
    rfl
  | blockStart bytes mapping =>
    simp only [encode, List.cons_append, decode, show (2 : UInt8).toNat = 2 from rfl,
      decodeBytes_encodeBytes (show bytes.length < 2 ^ 32 from wellFormed), Option.map_some]
    rfl
  | blockContinuation bytes mapping =>
    simp only [encode, List.cons_append, decode, show (3 : UInt8).toNat = 3 from rfl,
      decodeBytes_encodeBytes (show bytes.length < 2 ^ 32 from wellFormed), Option.map_some]
    rfl
  | parentSegmentHeader header =>
    simp only [encode, List.cons_append, decode, show (4 : UInt8).toNat = 4 from rfl,
      SegmentHeader.decode_encode (show header.WellFormed from wellFormed), Option.map_some]
    rfl

theorem SegmentItem.decode_shortens {input remaining : List UInt8} {item : SegmentItem}
    (decoded : SegmentItem.decode input = some (item, remaining)) :
    remaining.length < input.length := by
  cases input with
  | nil => simp [decode] at decoded
  | cons index rest =>
    simp only [decode] at decoded
    rw [List.length_cons, Nat.lt_succ_iff]
    -- every variant reads its field from what follows the index byte
    split_ifs at decoded
    · simp only [Option.some.injEq, Prod.mk.injEq] at decoded
      rw [decoded.2]
    · simp only [Option.map_eq_some_iff, Prod.exists, Prod.mk.injEq] at decoded
      obtain ⟨bytes, rest', inner, -, rfl⟩ := decoded
      exact decodeBytes_length_le inner
    · simp only [Option.map_eq_some_iff, Prod.exists, Prod.mk.injEq] at decoded
      obtain ⟨bytes, rest', inner, -, rfl⟩ := decoded
      exact decodeBytes_length_le inner
    · simp only [Option.map_eq_some_iff, Prod.exists, Prod.mk.injEq] at decoded
      obtain ⟨bytes, rest', inner, -, rfl⟩ := decoded
      exact decodeBytes_length_le inner
    · simp only [Option.map_eq_some_iff, Prod.exists, Prod.mk.injEq] at decoded
      obtain ⟨header, rest', inner, -, rfl⟩ := decoded
      exact SegmentHeader.decode_length_le inner

/-- The loop of `Segment::decode`: items until the input ends. -/
def decodeItems (input : List UInt8) : Option (List SegmentItem) :=
  match input with
  | [] => some []
  | first :: rest =>
    match decoded : SegmentItem.decode (first :: rest) with
    | none => none
    | some (item, remaining) =>
      have : remaining.length < (first :: rest).length := SegmentItem.decode_shortens decoded
      (decodeItems remaining).map (item :: ·)
termination_by input.length
decreasing_by exact this

/-- `Segment::encode_to` of `Segment::V0 { items }`. -/
def Segment.encode (items : List SegmentItem) : List UInt8 :=
  0 :: items.flatMap SegmentItem.encode

/-- `Segment::decode`: the variant byte `0`, then the items. -/
def Segment.decode : List UInt8 → Option (List SegmentItem)
  | [] => none
  | variant :: rest => if variant.toNat = 0 then decodeItems rest else none

theorem decodeItems_cons {item : SegmentItem} (wellFormed : item.WellFormed)
    (rest : List UInt8) :
    decodeItems (item.encode ++ rest) = (decodeItems rest).map (item.withoutMapping :: ·) := by
  have nonempty : item.encode ≠ [] := by cases item <;> simp [SegmentItem.encode]
  obtain ⟨first, tail, split⟩ := List.exists_cons_of_ne_nil nonempty
  have decoded := SegmentItem.decode_encode wellFormed rest
  rw [split, List.cons_append] at decoded ⊢
  rw [decodeItems]
  split
  · rename_i none_decoded
    rw [decoded] at none_decoded
    cases none_decoded
  · rename_i item' remaining some_decoded
    rw [decoded] at some_decoded
    cases some_decoded
    rfl

theorem decodeItems_zeros (padding : ℕ) :
    decodeItems (List.replicate padding 0) = some (List.replicate padding .padding) := by
  induction padding with
  | zero => simp [decodeItems]
  | succ padding ih =>
    have decoded := @SegmentItem.decode_encode .padding trivial (List.replicate padding 0)
    rw [List.replicate_succ, List.replicate_succ]
    rw [decodeItems]
    split
    · rename_i none_decoded
      rw [show SegmentItem.padding.encode ++ List.replicate padding 0 =
        0 :: List.replicate padding 0 from rfl] at decoded
      rw [decoded] at none_decoded
      cases none_decoded
    · rename_i item remaining some_decoded
      rw [show SegmentItem.padding.encode ++ List.replicate padding 0 =
        0 :: List.replicate padding 0 from rfl] at decoded
      rw [decoded] at some_decoded
      cases some_decoded
      rw [ih]
      rfl

/-- Decoding a segment padded with zeros gives back its items, without object mappings, and one
padding item per zero. -/
theorem segment_decode_encode {items : List SegmentItem} (wellFormed : ∀ item ∈ items, item.WellFormed)
    (padding : ℕ) :
    Segment.decode (Segment.encode items ++ List.replicate padding 0) =
      some (items.map SegmentItem.withoutMapping ++ List.replicate padding .padding) := by
  have zero : (0 : UInt8).toNat = 0 := rfl
  rw [Segment.encode, List.cons_append, Segment.decode, zero, if_pos rfl]
  induction items with
  | nil => simpa using decodeItems_zeros padding
  | cons item items ih =>
    rw [List.flatMap_cons, List.append_assoc,
      decodeItems_cons (wellFormed item List.mem_cons_self),
      ih (fun other member => wellFormed other (List.mem_cons_of_mem _ member))]
    rfl

end Subspace.Archiving
