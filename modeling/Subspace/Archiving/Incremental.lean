import Subspace.Archiving.Reconstruction

/-!
# Incremental record commitments

While the buffer is too small for a segment, `produce_segment` with `incremental` set commits to
the whole records at the start of the buffer's encoding (`update_record_commitments`), and
`produce_archived_segment` then commits only to the records after them. The items those records
come from stay at the front of the buffer until the next segment is closed, and they all go into
it: they fit in a segment with room to spare, and a split touches only the last item of the
segment, which comes after them. So the records committed to early are the first records of the
segment (`CommittedPrefix.rawRecords`).

`Archiver.Agrees` relates an archiver that commits early to one that does not: they are equal but
for the commitments, which are those of whole records at the front of the buffer. Every step of
`add_block` keeps the relation and gives the same result on both sides, so archiving with
`incremental` set gives, call by call, the outcomes of archiving without it
(`incremental_archiving_agrees_with_plain`).
-/

namespace Subspace.Archiving

variable {α : Type} {Commitment Witness : Type}

/-! ## Whole chunks -/

/-- The chunks of a list that starts with whole chunks: those chunks, then the chunks of the
rest. -/
theorem chunksExact_append_of_length {size : ℕ} (positive : 0 < size) :
    ∀ (count : ℕ) {front : List α} (back : List α), front.length = count * size →
      chunksExact size (front ++ back) = chunksExact size front ++ chunksExact size back
  | 0, front, back, empty => by
    rw [Nat.zero_mul, List.length_eq_zero_iff] at empty
    subst empty
    simp [chunksExact]
  | count + 1, front, back, sized => by
    have long : size ≤ front.length := by rw [sized, Nat.succ_mul]; omega
    rw [chunksExact_eq_cons positive (by rw [List.length_append]; omega),
      chunksExact_eq_cons positive long, List.take_append_of_le_length long,
      List.drop_append_of_le_length long,
      chunksExact_append_of_length positive count back
        (by rw [List.length_drop, sized, Nat.succ_mul]; omega),
      List.cons_append]

/-- The chunks of `front ++ back` start with the whole chunks of `front`; the bytes of `front`
after its last whole chunk go into the next chunk with those of `back`. -/
theorem chunksExact_append {size : ℕ} (positive : 0 < size) (front back : List α) :
    chunksExact size (front ++ back) = chunksExact size front ++
      chunksExact size (front.drop (front.length / size * size) ++ back) := by
  have whole : (front.take (front.length / size * size)).length = front.length / size * size :=
    List.length_take_of_le (Nat.div_mul_le_self _ _)
  have tail : chunksExact size (front.drop (front.length / size * size)) = [] := by
    apply List.eq_nil_of_length_eq_zero
    have split := Nat.mod_add_div front.length size
    have short := Nat.mod_lt front.length positive
    rw [length_chunksExact, List.length_drop, Nat.mul_comm size] at *
    exact Nat.div_eq_of_lt (by omega)
  have wholeChunks : chunksExact size front =
      chunksExact size (front.take (front.length / size * size)) := by
    conv_lhs => rw [← List.take_append_drop (front.length / size * size) front]
    rw [chunksExact_append_of_length positive _ _ whole, tail, List.append_nil]
  conv_lhs => rw [← List.take_append_drop (front.length / size * size) front]
  rw [List.append_assoc, chunksExact_append_of_length positive _ _ whole, ← wholeChunks]

/-! ## `update_record_commitments` -/

/-- The processor keeps the bytes written after those it skips. -/
theorem IncrementalRecordCommitmentsProcessor.foldl_write :
    ∀ (writes : List (List UInt8)) (skipBytes : ℕ) (buffer : List UInt8),
      (writes.foldl write ⟨skipBytes, buffer⟩).buffer = buffer ++ writes.flatten.drop skipBytes
  | [], _, buffer => by simp
  | bytes :: writes, skipBytes, buffer => by
    rw [List.foldl_cons, write]
    dsimp only
    split_ifs with skipped
    · -- the write is skipped as a whole
      rw [foldl_write writes (skipBytes - bytes.length) buffer, List.flatten_cons,
        List.drop_append, List.drop_eq_nil_of_le skipped, List.nil_append]
    · rw [foldl_write writes 0 _, List.flatten_cons, List.drop_append,
        Nat.sub_eq_zero_of_le (by omega), List.drop_zero, List.append_assoc]

theorem Segment.flatten_writes (items : List SegmentItem) :
    (Segment.writes items).flatten = Segment.encode items := by
  simp [Segment.writes, Segment.encode, List.flatMap]

/-- `update_record_commitments` commits to the whole records of the segment's encoding after
those committed to already. -/
theorem updateRecordCommitments_eq (coding : ArchiverCoding Commitment Witness)
    (commitments : List Commitment) (items : List SegmentItem) :
    updateRecordCommitments coding commitments items = commitments ++
      (chunksExact rawRecordSize
        ((Segment.encode items).drop (commitments.length * rawRecordSize))).map
          coding.commitRecord := by
  rw [updateRecordCommitments, IncrementalRecordCommitmentsProcessor.foldl_write,
    Segment.flatten_writes, List.nil_append]

theorem Segment.encode_append (front back : List SegmentItem) :
    Segment.encode (front ++ back) = Segment.encode front ++ back.flatMap SegmentItem.encode := by
  simp [Segment.encode]

@[simp]
theorem SegmentItem.encode_withoutMapping (item : SegmentItem) :
    item.withoutMapping.encode = item.encode := by
  cases item <;> rfl

@[simp]
theorem Segment.encode_map_withoutMapping (items : List SegmentItem) :
    Segment.encode (items.map SegmentItem.withoutMapping) = Segment.encode items := by
  simp [Segment.encode, List.flatMap_map]

/-! ## What the commitments cover -/

/-- The record commitments are those of the whole records at the start of the encoding of
`committed`, items at the front of `items` that fit in a segment with room to spare. -/
def CommittedPrefix (coding : ArchiverCoding Commitment Witness) (commitments : List Commitment)
    (items : List SegmentItem) : Prop :=
  ∃ committed, committed <+: items ∧
    (Segment.encode committed).length < recordedHistorySegmentSize - 2 ∧
    commitments = (chunksExact rawRecordSize (Segment.encode committed)).map coding.commitRecord

section Committed

variable {coding : ArchiverCoding Commitment Witness} {commitments : List Commitment}
  {items : List SegmentItem}

theorem CommittedPrefix.nil (items : List SegmentItem) : CommittedPrefix coding [] items := by
  refine ⟨[], List.nil_prefix, by decide, ?_⟩
  rw [eq_comm, List.map_eq_nil_iff, ← List.length_eq_zero_iff, length_chunksExact]
  exact Nat.div_eq_of_lt (by decide)

theorem CommittedPrefix.append (committed : CommittedPrefix coding commitments items)
    (more : List SegmentItem) : CommittedPrefix coding commitments (items ++ more) := by
  obtain ⟨front, isFront, fits, covered⟩ := committed
  exact ⟨front, isFront.trans (List.prefix_append items more), fits, covered⟩

theorem CommittedPrefix.map_withoutMapping (committed : CommittedPrefix coding commitments items) :
    CommittedPrefix coding commitments (items.map SegmentItem.withoutMapping) := by
  obtain ⟨front, isFront, fits, covered⟩ := committed
  refine ⟨front.map SegmentItem.withoutMapping, isFront.map _, ?_, ?_⟩
  · rwa [Segment.encode_map_withoutMapping]
  · rwa [Segment.encode_map_withoutMapping]

/-- Bringing the commitments up to date on items that fit in a segment with room to spare
commits to all whole records of their encoding. -/
theorem CommittedPrefix.update (committed : CommittedPrefix coding commitments items)
    (fits : (Segment.encode items).length < recordedHistorySegmentSize - 2) :
    CommittedPrefix coding (updateRecordCommitments coding commitments items) items := by
  obtain ⟨front, ⟨more, rfl⟩, -, rfl⟩ := committed
  refine ⟨front ++ more, List.prefix_refl _, fits, ?_⟩
  have whole : (Segment.encode front).length / rawRecordSize * rawRecordSize ≤
      (Segment.encode front).length := Nat.div_mul_le_self _ _
  rw [updateRecordCommitments_eq, List.length_map, length_chunksExact, Segment.encode_append,
    List.drop_append_of_le_length whole,
    chunksExact_append (by decide) (Segment.encode front) (more.flatMap SegmentItem.encode),
    List.map_append]

/-- The records committed to early are the first records of the segment: committing to the
others gives the commitments of all of them. -/
theorem CommittedPrefix.rawRecords {segment : List SegmentItem}
    (committed : CommittedPrefix coding commitments segment) :
    commitments ++ ((Segment.rawRecords segment).drop commitments.length).map coding.commitRecord =
      (Segment.rawRecords segment).map coding.commitRecord := by
  obtain ⟨front, ⟨more, rfl⟩, -, rfl⟩ := committed
  simp only [Segment.rawRecords]
  rw [Segment.encode_append, List.append_assoc, chunksExact_append (by decide), List.length_map,
    List.drop_left, List.map_append]

end Committed

/-- `produce_archived_segment` with commitments to the first records of the segment gives what it
gives with none. -/
theorem Archiver.produceArchivedSegment_of_committedPrefix
    (coding : ArchiverCoding Commitment Witness) {archiver : Archiver Commitment}
    {segment : List SegmentItem}
    (committed : CommittedPrefix coding archiver.incrementalRecordCommitments segment) :
    archiver.produceArchivedSegment coding segment =
      ({ archiver with incrementalRecordCommitments := [] } : Archiver Commitment).produceArchivedSegment
        coding segment := by
  simp only [Archiver.produceArchivedSegment, committed.rawRecords, List.length_nil,
    List.drop_zero, List.nil_append]

/-! ## The items of the next segment -/

section Fill

variable {segment rest : List SegmentItem} {segmentSize size : ℕ} {last last' : LastArchivedBlock}

/-- The loop of `produce_segment` runs out of items only below the segment size, with the sizes
of all items counted. -/
theorem fillSegment_exhausted :
    ∀ {segment : List SegmentItem} {segmentSize : ℕ} {last : LastArchivedBlock}
      {buffer : List SegmentItem},
      fillSegment segment segmentSize last buffer = .exhausted size →
        size = segmentSize + bufferSize buffer ∧ size < recordedHistorySegmentSize - 2
  | segment, segmentSize, last, [], filled => by
    rw [fillSegment] at filled
    split_ifs at filled with small
    cases filled
    exact ⟨rfl, small⟩
  | segment, segmentSize, last, item :: buffer, filled => by
    rw [fillSegment] at filled
    dsimp only at filled
    split_ifs at filled with small
    obtain ⟨sized, small'⟩ := fillSegment_exhausted filled
    exact ⟨by rw [bufferSize_cons]; omega, small'⟩

/-- Items that fit in the segment with room to spare are taken without a look at their sizes. -/
theorem fillSegment_append_of_lt :
    ∀ {segment : List SegmentItem} {segmentSize : ℕ} {last : LastArchivedBlock}
      (front back : List SegmentItem),
      segmentSize + bufferSize front < recordedHistorySegmentSize - 2 →
        fillSegment segment segmentSize last (front ++ back) =
          fillSegment (segment ++ front) (segmentSize + bufferSize front)
            (front.foldl LastArchivedBlock.noteItem last) back
  | segment, segmentSize, last, [], back, _ => by simp
  | segment, segmentSize, last, item :: front, back, fits => by
    rw [bufferSize_cons] at fits
    rw [List.cons_append, fillSegment_cons_take (by omega) (.inl (by omega)),
      fillSegment_append_of_lt front back (by omega), List.append_assoc, List.singleton_append,
      List.foldl_cons, bufferSize_cons, Nat.add_assoc]

/-- The items at the front of the buffer that fit with room to spare start the full segment. -/
theorem fillSegment_full_front {committed buffer : List SegmentItem}
    (front : committed <+: buffer)
    (fits : (Segment.encode committed).length < recordedHistorySegmentSize - 2)
    (filled : fillSegment [] 1 last buffer = .full segment size last' rest) :
    ∃ taken, segment = committed ++ taken ∧ size = 1 + bufferSize committed + bufferSize taken := by
  obtain ⟨more, rfl⟩ := front
  rw [Segment.length_encode] at fits
  rw [fillSegment_append_of_lt committed more fits] at filled
  obtain ⟨taken, rfl, -, rfl, -⟩ := fillSegment_full filled
  exact ⟨taken, List.nil_append _, rfl⟩

/-- A split of the last item of a segment leaves the items before it as they are. -/
theorem spillLastItem_front {spillOver : ℕ} {committed taken buffer : List SegmentItem}
    (nonempty : taken ≠ []) :
    committed <+: (spillLastItem spillOver (committed ++ taken) last buffer).1 := by
  unfold spillLastItem
  split
  case h_3 => exact List.prefix_append _ _
  all_goals
    simp only [splitObjectMapping]
    rw [List.dropLast_append_of_ne_nil nonempty, List.append_assoc]
    exact List.prefix_append _ _

end Fill

/-! ## The two archivers -/

/-- An archiver that commits to records early and one that does not: equal but for the
commitments, which cover items at the front of the buffer. -/
structure Archiver.Agrees (coding : ArchiverCoding Commitment Witness)
    (archiver plain : Archiver Commitment) : Prop where
  plain_eq : plain = { archiver with incrementalRecordCommitments := [] }
  committed : CommittedPrefix coding archiver.incrementalRecordCommitments archiver.buffer

/-- What `produce_segment` gives on two archivers that agree: no segment and archivers that still
agree, or the same segment, whose first records the commitments cover. -/
def ProducedAgree (coding : ArchiverCoding Commitment Witness) :
    Option (List SegmentItem) × Archiver Commitment →
      Option (List SegmentItem) × Archiver Commitment → Prop
  | (none, archiver), (none, plain) => archiver.Agrees coding plain
  | (some segment, archiver), (some segment', plain) =>
    segment = segment' ∧ plain = { archiver with incrementalRecordCommitments := [] } ∧
      CommittedPrefix coding archiver.incrementalRecordCommitments segment
  | _, _ => False

section Agrees

variable {coding : ArchiverCoding Commitment Witness} {archiver plain : Archiver Commitment}

/-- An archiver without commitments agrees with itself. -/
theorem Archiver.agrees_self (empty : archiver.incrementalRecordCommitments = []) :
    archiver.Agrees coding archiver := by
  refine ⟨?_, ?_⟩
  · cases archiver
    cases empty
    rfl
  · rw [empty]
    exact CommittedPrefix.nil _

/-- One call of `produce_segment`, with or without incremental commitments, on archivers that
agree. -/
theorem Archiver.Agrees.produceSegment (agrees : archiver.Agrees coding plain)
    (incremental : Bool) :
    ProducedAgree coding (archiver.produceSegment coding incremental)
      (plain.produceSegment coding false) := by
  obtain ⟨plainEq, committed⟩ := agrees
  -- both loops of `produce_segment` run over the same buffer
  cases filled : fillSegment [] 1 archiver.lastArchivedBlock archiver.buffer with
  | exhausted size =>
    -- no segment: only the commitments of the incremental archiver may change
    obtain ⟨sized, small⟩ := fillSegment_exhausted filled
    have filledPlain : fillSegment [] 1 plain.lastArchivedBlock plain.buffer = .exhausted size := by
      rw [plainEq]
      exact filled
    rw [Archiver.produceSegment_of_exhausted archiver filled,
      Archiver.produceSegment_of_exhausted plain filledPlain]
    subst plainEq
    refine ⟨rfl, ?_⟩
    split_ifs
    · exact committed.update (by rw [Segment.length_encode]; omega)
    · exact committed
  | full segment size last rest =>
    have filledPlain : fillSegment [] 1 plain.lastArchivedBlock plain.buffer =
        .full segment size last rest := by
      rw [plainEq]
      exact filled
    subst plainEq
    obtain ⟨front, isFront, fits, covered⟩ := committed
    obtain ⟨taken, rfl, sized⟩ := fillSegment_full_front isFront fits filled
    by_cases within : size ≤ recordedHistorySegmentSize
    · rw [Archiver.produceSegment_of_full_le archiver filled within,
        Archiver.produceSegment_of_full_le _ filledPlain within]
      exact ⟨rfl, rfl, front, List.prefix_append _ _, fits, covered⟩
    · -- the segment is over its size, so its last item comes after the committed ones
      have nonempty : taken ≠ [] := by
        rintro rfl
        rw [Segment.length_encode] at fits
        rw [bufferSize_nil] at sized
        omega
      rw [Archiver.produceSegment_of_full_lt archiver filled (by omega),
        Archiver.produceSegment_of_full_lt _ filledPlain (by omega)]
      exact ⟨rfl, rfl, front, spillLastItem_front nonempty, fits, covered⟩

/-- The loop of `add_block` on archivers that agree gives the same segments and objects, and
archivers that agree. -/
theorem Archiver.Agrees.produceSegments (incremental : Bool) :
    ∀ (size : ℕ) {archiver plain : Archiver Commitment}, bufferSize archiver.buffer = size →
      archiver.Agrees coding plain →
        (archiver.produceSegments coding incremental).1 = (plain.produceSegments coding false).1 ∧
        (archiver.produceSegments coding incremental).2.1 =
          (plain.produceSegments coding false).2.1 ∧
        (archiver.produceSegments coding incremental).2.2.Agrees coding
          (plain.produceSegments coding false).2.2 := by
  intro size
  induction size using Nat.strongRecOn with
  | _ size ih =>
  intro archiver plain sized agrees
  have step := agrees.produceSegment incremental
  rcases produced : archiver.produceSegment coding incremental with ⟨_ | segment, archiver'⟩ <;>
    rcases expected : plain.produceSegment coding false with ⟨_ | segment', plain'⟩ <;>
    rw [produced, expected] at step
  case none.none =>
    rw [Archiver.produceSegments_of_none produced, Archiver.produceSegments_of_none expected]
    exact ⟨rfl, rfl, step⟩
  case none.some => exact step.elim
  case some.none => exact step.elim
  case some.some =>
    obtain ⟨rfl, rfl, committed⟩ := step
    rw [Archiver.produceSegments_of_some produced, Archiver.produceSegments_of_some expected]
    dsimp only
    -- both archive the same segment, and the archivers after it have no commitments
    have archived : archiver'.produceArchivedSegment coding
        (produceObjectMappings archiver'.segmentIndex segment).2 =
          ({ archiver' with incrementalRecordCommitments := [] } : Archiver Commitment).produceArchivedSegment
            coding (produceObjectMappings archiver'.segmentIndex segment).2 :=
      Archiver.produceArchivedSegment_of_committedPrefix coding committed.map_withoutMapping
    rw [← archived]
    have shorter : bufferSize (archiver'.produceArchivedSegment coding
        (produceObjectMappings archiver'.segmentIndex segment).2).2.buffer < size :=
      sized ▸ Nat.lt_of_le_of_lt (bufferSize_produceArchivedSegment coding archiver' _)
        (bufferSize_produceSegment_lt produced)
    obtain ⟨segments, objects, agrees'⟩ := ih _ shorter rfl (Archiver.agrees_self rfl)
    exact ⟨by rw [segments], by rw [objects], agrees'⟩

/-- `add_block` on archivers that agree gives the same outcome, and archivers that agree. -/
theorem Archiver.Agrees.addBlock (agrees : archiver.Agrees coding plain) (bytes : List UInt8)
    (objectMapping : List BlockObject) (incremental : Bool) :
    (archiver.addBlock coding bytes objectMapping incremental).1 =
      (plain.addBlock coding bytes objectMapping false).1 ∧
    (archiver.addBlock coding bytes objectMapping incremental).2.Agrees coding
      (plain.addBlock coding bytes objectMapping false).2 := by
  obtain ⟨rfl, committed⟩ := agrees
  have appended : Archiver.Agrees coding
      { archiver with buffer := archiver.buffer ++ [.block bytes objectMapping] }
      { ({ archiver with incrementalRecordCommitments := [] } : Archiver Commitment) with
        buffer := archiver.buffer ++ [.block bytes objectMapping] } :=
    ⟨rfl, committed.append _⟩
  obtain ⟨segments, objects, last⟩ := appended.produceSegments incremental _ rfl
  rw [Archiver.addBlock_of_produceSegments archiver rfl,
    Archiver.addBlock_of_produceSegments _ rfl, ← segments, ← objects, last.plain_eq]
  exact ⟨rfl, rfl, last.committed.map_withoutMapping⟩

/-- `add_block` of every block in turn, on archivers that agree. -/
theorem Archiver.Agrees.archiveBlocks :
    ∀ (blocks : List (List UInt8 × List BlockObject × Bool)) {archiver plain : Archiver Commitment},
      archiver.Agrees coding plain →
        (archiver.archiveBlocks coding blocks).1 =
          (plain.archiveBlocks coding
            (blocks.map fun (bytes, objectMapping, _) => (bytes, objectMapping, false))).1 ∧
        (archiver.archiveBlocks coding blocks).2.Agrees coding
          (plain.archiveBlocks coding
            (blocks.map fun (bytes, objectMapping, _) => (bytes, objectMapping, false))).2
  | [], _, _, agrees => ⟨rfl, agrees⟩
  | (bytes, objectMapping, incremental) :: blocks, archiver, plain, agrees => by
    obtain ⟨outcome, agrees'⟩ := agrees.addBlock bytes objectMapping incremental
    obtain ⟨outcomes, final⟩ := Archiver.Agrees.archiveBlocks blocks agrees'
    rw [List.map_cons, Archiver.archiveBlocks, Archiver.archiveBlocks]
    exact ⟨by rw [outcome, outcomes], final⟩

end Agrees

/-- Archiving blocks with incremental record commitments gives, call by call, the outcomes of
archiving them without: the same archived segments, pieces and headers, and the same object
mappings. The archivers left are equal but for the commitments, which are those of the whole
records at the start of the encoding of the buffer. -/
theorem incremental_archiving_agrees_with_plain (coding : ArchiverCoding Commitment Witness)
    (blocks : List (List UInt8 × List BlockObject)) :
    (Archiver.new.archiveBlocks coding
        (blocks.map fun (bytes, objectMapping) => (bytes, objectMapping, true))).1 =
      (Archiver.new.archiveBlocks coding
        (blocks.map fun (bytes, objectMapping) => (bytes, objectMapping, false))).1 ∧
    (Archiver.new.archiveBlocks coding
        (blocks.map fun (bytes, objectMapping) => (bytes, objectMapping, true))).2.Agrees coding
      (Archiver.new.archiveBlocks coding
        (blocks.map fun (bytes, objectMapping) => (bytes, objectMapping, false))).2 := by
  have forget : ((blocks.map fun (bytes, objectMapping) => (bytes, objectMapping, true)).map
      fun (bytes, objectMapping, _) => (bytes, objectMapping, false)) =
        blocks.map fun (bytes, objectMapping) => (bytes, objectMapping, false) := by
    rw [List.map_map]
    rfl
  have run := Archiver.Agrees.archiveBlocks
    (blocks.map fun (bytes, objectMapping) => (bytes, objectMapping, true))
    (Archiver.agrees_self rfl : (Archiver.new : Archiver Commitment).Agrees coding Archiver.new)
  rwa [forget] at run

end Subspace.Archiving
