import Mathlib
import Subspace.Archiving.Incremental

/-!
# The buffer of the archiver

What the `unreachable!` and `expect` arms of `produce_segment` and `produce_object_mappings`
rely on, and the size of the segments. Between two calls of `produce_segment` the buffer holds
the header of the last segment if there is one, then the continuation of a split block if there
is one, then whole blocks; a continuation means that the last archived block is partly archived
(`BufferShape`). `Archiver::new`, `with_initial_state` and every `add_block` keep that shape
(`Archiver.Reachable`), and so does every state in which `add_block` calls `produce_segment`
(`Archiver.Visited`).

So the loop of `produce_segment` meets no padding and no `BlockStart`, a header only first,
where it fits, and a continuation only with some bytes archived already. A segment over its size
ends with a block or a continuation whose bytes, and archived bytes, cover the spill over, so the
split does not underflow; and every segment encodes to at most `SIZE` bytes, which
`produce_archived_segment` cuts into exactly `NUM_RAW_RECORDS` records (`SegmentProduced`).
-/

namespace Subspace.Archiving

variable {Commitment Witness : Type}

/-- A buffer of the header of the last segment if any, then the continuation of a split block
if any, then whole blocks. -/
def shapedBuffer (header : Option SegmentHeader)
    (continuation : Option (List UInt8 × List BlockObject))
    (blocks : List (List UInt8 × List BlockObject)) : List SegmentItem :=
  header.toList.map .parentSegmentHeader ++
    continuation.toList.map (fun part => .blockContinuation part.1 part.2) ++
    blocks.map fun block => .block block.1 block.2

/-- The buffer between two calls of `produce_segment`: shaped, and a continuation in it means
that the last archived block is partly archived. -/
def BufferShape (buffer : List SegmentItem) (last : LastArchivedBlock) : Prop :=
  ∃ header continuation blocks, buffer = shapedBuffer header continuation blocks ∧
    (continuation.isSome → last.partialArchived.isSome)

namespace BufferShape

variable {buffer : List SegmentItem} {last : LastArchivedBlock}

theorem nil : BufferShape [] last := ⟨none, none, [], rfl, by simp⟩

/-- `add_block` puts the block at the end of the buffer. -/
theorem append_block (shape : BufferShape buffer last) (bytes : List UInt8)
    (objectMapping : List BlockObject) :
    BufferShape (buffer ++ [.block bytes objectMapping]) last := by
  obtain ⟨header, continuation, blocks, rfl, partlyArchived⟩ := shape
  exact ⟨header, continuation, blocks ++ [(bytes, objectMapping)], by simp [shapedBuffer],
    partlyArchived⟩

/-- `produce_object_mappings` takes the object mappings out of the buffer. -/
theorem map_withoutMapping (shape : BufferShape buffer last) :
    BufferShape (buffer.map SegmentItem.withoutMapping) last := by
  obtain ⟨header, continuation, blocks, rfl, partlyArchived⟩ := shape
  refine ⟨header, continuation.map fun part => (part.1, []), blocks.map fun block => (block.1, []),
    ?_, by simpa using partlyArchived⟩
  cases header <;> cases continuation <;> simp [shapedBuffer, SegmentItem.withoutMapping]

end BufferShape

@[simp]
theorem LastArchivedBlock.partialArchived_setPartialArchived (last : LastArchivedBlock)
    (newPartial : ℕ) : (last.setPartialArchived newPartial).partialArchived = some newPartial := rfl

/-! ## The loop of `produce_segment` on a shaped buffer -/

section Fill

variable {segment segment' buffer rest : List SegmentItem} {segmentSize size : ℕ}
  {last last' : LastArchivedBlock}

/-- The last archived block at the end of the loop notes every item taken. -/
theorem fillSegment_full_noted
    (filled : fillSegment segment segmentSize last buffer = .full segment' size last' rest) :
    ∃ taken, segment' = segment ++ taken ∧ buffer = taken ++ rest ∧
      last' = taken.foldl LastArchivedBlock.noteItem last := by
  induction buffer generalizing segment segmentSize last with
  | nil =>
    simp only [fillSegment] at filled
    split_ifs at filled
    cases filled
    exact ⟨[], by simp, by simp, rfl⟩
  | cons item buffer ih =>
    simp only [fillSegment] at filled
    split_ifs at filled with small pushedBack
    · cases filled
      exact ⟨[], by simp, by simp, rfl⟩
    · obtain ⟨taken, rfl, rfl, rfl⟩ := ih filled
      exact ⟨item :: taken, by simp, by simp, rfl⟩
    · cases filled
      exact ⟨[], by simp, by simp, rfl⟩

/-- A segment that ends over its size ends with the item that took it there, which passed the
check of the loop: its spill over is at most its own bytes. -/
theorem fillSegment_full_spilled
    (filled : fillSegment segment segmentSize last buffer = .full segment' size last' rest)
    (within : segmentSize ≤ recordedHistorySegmentSize)
    (spilled : recordedHistorySegmentSize < size) :
    ∃ front item, segment' = front ++ [item] ∧
      size - recordedHistorySegmentSize ≤ item.innerBytesSize := by
  induction buffer generalizing segment segmentSize last with
  | nil =>
    simp only [fillSegment] at filled
    split_ifs at filled
    cases filled
    omega
  | cons item buffer ih =>
    simp only [fillSegment] at filled
    split_ifs at filled with small pushedBack
    · cases filled
      omega
    · by_cases grownWithin : segmentSize + item.encodedSize ≤ recordedHistorySegmentSize
      · exact ih filled grownWithin
      · -- the item took the segment over its size, and the loop stops after it
        rw [fillSegment_of_le (by omega)] at filled
        cases filled
        exact ⟨segment, item, rfl, by omega⟩
    · cases filled
      omega

end Fill

/-- A header, if any, is at most `99` bytes. -/
theorem bufferSize_headerItems (header : Option SegmentHeader) :
    bufferSize (header.toList.map .parentSegmentHeader) ≤ 99 := by
  cases header with
  | none => simp
  | some header =>
    simpa using SegmentItem.encodedSize_parentSegmentHeader header

/-- A header leaves the last archived block as it is. -/
theorem foldl_noteItem_headerItems (header : Option SegmentHeader) (last : LastArchivedBlock) :
    (header.toList.map .parentSegmentHeader).foldl LastArchivedBlock.noteItem last = last := by
  cases header <;> rfl

/-- The loop on a shaped buffer takes at least the header and one item more: what is left are
whole blocks, and the segment ends with a block or with the continuation, which is then the
only item after the header. -/
theorem fillSegment_shaped {header : Option SegmentHeader}
    {continuation : Option (List UInt8 × List BlockObject)}
    {blocks : List (List UInt8 × List BlockObject)} {segment rest : List SegmentItem} {size : ℕ}
    {last last' : LastArchivedBlock}
    (filled : fillSegment [] 1 last (shapedBuffer header continuation blocks) =
      .full segment size last' rest) :
    (∃ kept : List (List UInt8 × List BlockObject),
      rest = kept.map fun block => .block block.1 block.2) ∧
    ∃ front item, segment = front ++ [item] ∧
      ((∃ bytes objectMapping, item = .block bytes objectMapping) ∨
        ∃ part, continuation = some part ∧ item = .blockContinuation part.1 part.2 ∧
          front = header.toList.map .parentSegmentHeader ∧ last' = last.noteItem item) := by
  obtain ⟨taken, takenEq, buffer, sized, full⟩ := fillSegment_full filled
  obtain ⟨noted, notedEq, -, lastEq⟩ := fillSegment_full_noted filled
  rw [List.nil_append] at takenEq notedEq
  subst takenEq
  subst notedEq
  have headerSize := bufferSize_headerItems header
  have sizeEq := recordedHistorySegmentSize_eq
  unfold shapedBuffer at buffer
  rw [List.append_assoc] at buffer
  -- the segment is more than the header
  obtain ⟨more, rfl, moreEq⟩ : ∃ more, segment = header.toList.map .parentSegmentHeader ++ more ∧
      continuation.toList.map (fun part => .blockContinuation part.1 part.2) ++
        blocks.map (fun block => .block block.1 block.2) = more ++ rest := by
    rcases List.append_eq_append_iff.mp buffer with ⟨more, segmentEq, moreEq⟩ | ⟨less, headerEq, -⟩
    · exact ⟨more, segmentEq, moreEq⟩
    · rw [headerEq, bufferSize_append] at headerSize
      omega
  have nonempty : more ≠ [] := by
    rintro rfl
    rw [List.append_nil] at sized
    omega
  rw [lastEq, List.foldl_append, foldl_noteItem_headerItems]
  cases continuation with
  | none =>
    obtain ⟨taken, kept, -, rfl, rfl⟩ := List.map_eq_append_iff.mp (by simpa using moreEq)
    refine ⟨⟨kept, rfl⟩, ?_⟩
    obtain ⟨init, block, rfl⟩ := List.eq_nil_or_concat taken |>.resolve_left (by simpa using nonempty)
    exact ⟨header.toList.map .parentSegmentHeader ++ init.map (fun block => .block block.1 block.2),
      .block block.1 block.2, by simp, .inl ⟨_, _, rfl⟩⟩
  | some part =>
    cases more with
    | nil => exact absurd rfl nonempty
    | cons first more =>
      simp only [Option.toList_some, List.map_cons, List.map_nil, List.cons_append,
        List.cons.injEq] at moreEq
      obtain ⟨rfl, blocksEq⟩ := moreEq
      obtain ⟨taken, kept, -, rfl, rfl⟩ := List.map_eq_append_iff.mp blocksEq
      refine ⟨⟨kept, rfl⟩, ?_⟩
      rcases List.eq_nil_or_concat taken with rfl | ⟨init, block, rfl⟩
      · exact ⟨_, _, by simp, .inr ⟨part, rfl, rfl, rfl, rfl⟩⟩
      · exact ⟨header.toList.map .parentSegmentHeader ++ .blockContinuation part.1 part.2 ::
          init.map (fun block => .block block.1 block.2), .block block.1 block.2, by simp,
          .inl ⟨_, _, rfl⟩⟩

/-! ## `produce_segment` on a shaped buffer -/

section Produce

variable {coding : ArchiverCoding Commitment Witness} {incremental : Bool}
  {archiver archiver' : Archiver Commitment} {segment : List SegmentItem}

/-- `produce_segment` returns a segment only from a full loop: as the loop left it, or with its
last item split. -/
theorem Archiver.produceSegment_eq_some
    (produced : archiver.produceSegment coding incremental = (some segment, archiver')) :
    ∃ taken size last rest,
      fillSegment [] 1 archiver.lastArchivedBlock archiver.buffer = .full taken size last rest ∧
      ((size ≤ recordedHistorySegmentSize ∧ segment = taken ∧
          archiver' = { archiver with buffer := rest, lastArchivedBlock := last.setComplete }) ∨
        (recordedHistorySegmentSize < size ∧
          segment = (spillLastItem (size - recordedHistorySegmentSize) taken last rest).1 ∧
          archiver' = { archiver with
            buffer := (spillLastItem (size - recordedHistorySegmentSize) taken last rest).2.2
            lastArchivedBlock :=
              (spillLastItem (size - recordedHistorySegmentSize) taken last rest).2.1 })) := by
  cases filled : fillSegment [] 1 archiver.lastArchivedBlock archiver.buffer with
  | exhausted size =>
    rw [Archiver.produceSegment_of_exhausted archiver filled] at produced
    simp at produced
  | full taken size last rest =>
    refine ⟨taken, size, last, rest, rfl, ?_⟩
    by_cases within : size ≤ recordedHistorySegmentSize
    · rw [Archiver.produceSegment_of_full_le archiver filled within] at produced
      simp only [Prod.mk.injEq, Option.some.injEq] at produced
      exact .inl ⟨within, produced.1.symm, produced.2.symm⟩
    · rw [Archiver.produceSegment_of_full_lt archiver filled (by omega)] at produced
      simp only [Prod.mk.injEq, Option.some.injEq] at produced
      exact .inr ⟨by omega, produced.1.symm, produced.2.symm⟩

/-- Without a segment, `produce_segment` leaves the buffer and the last archived block. -/
theorem Archiver.produceSegment_eq_none
    (produced : archiver.produceSegment coding incremental = (none, archiver')) :
    archiver'.buffer = archiver.buffer ∧ archiver'.lastArchivedBlock = archiver.lastArchivedBlock := by
  cases filled : fillSegment [] 1 archiver.lastArchivedBlock archiver.buffer with
  | exhausted size =>
    rw [Archiver.produceSegment_of_exhausted archiver filled, Prod.mk.injEq] at produced
    rw [← produced.2]
    exact ⟨rfl, rfl⟩
  | full taken size last rest =>
    by_cases within : size ≤ recordedHistorySegmentSize
    · rw [Archiver.produceSegment_of_full_le archiver filled within] at produced
      simp at produced
    · rw [Archiver.produceSegment_of_full_lt archiver filled (by omega)] at produced
      simp at produced

end Produce

/-! ## The split -/

section Split

variable (spillOver : ℕ) (front : List SegmentItem) (bytes : List UInt8)
  (objectMapping : List BlockObject) (last : LastArchivedBlock) (rest : List SegmentItem)

theorem spillLastItem_block :
    spillLastItem spillOver (front ++ [.block bytes objectMapping]) last rest =
      (front ++ [.blockStart (bytes.take (bytes.length - spillOver))
          (splitObjectMapping (bytes.length - spillOver) objectMapping).1],
        last.setPartialArchived (bytes.take (bytes.length - spillOver)).length,
        .blockContinuation (bytes.drop (bytes.length - spillOver))
          (splitObjectMapping (bytes.length - spillOver) objectMapping).2 :: rest) := by
  simp [spillLastItem]

theorem spillLastItem_blockContinuation :
    spillLastItem spillOver (front ++ [.blockContinuation bytes objectMapping]) last rest =
      (front ++ [.blockContinuation (bytes.take (bytes.length - spillOver))
          (splitObjectMapping (bytes.length - spillOver) objectMapping).1],
        last.setPartialArchived (last.partialArchived.getD 0 - spillOver),
        .blockContinuation (bytes.drop (bytes.length - spillOver))
          (splitObjectMapping (bytes.length - spillOver) objectMapping).2 :: rest) := by
  simp [spillLastItem]

/-- Cutting the bytes of the last item by the spill over takes at least as much off the
segment: the compact length of the bytes only shrinks with them. -/
theorem bufferSize_take_add_le {kept : SegmentItem} {whole : SegmentItem}
    (keptSize : kept.encodedSize = 1 + compactLen (bytes.length - spillOver) +
      (bytes.length - spillOver))
    (wholeSize : whole.encodedSize = 1 + compactLen bytes.length + bytes.length)
    (within : spillOver ≤ bytes.length) :
    bufferSize (front ++ [kept]) + spillOver ≤ bufferSize (front ++ [whole]) := by
  have shrinks := compactLen_mono (Nat.sub_le bytes.length spillOver)
  simp only [bufferSize_append, bufferSize_cons, bufferSize_nil, keptSize, wholeSize]
  omega

end Split

/-! ## Segments of a shaped buffer -/

section Shaped

variable {buffer taken rest : List SegmentItem} {size : ℕ} {last last' : LastArchivedBlock}

/-- A shaped buffer holds no padding. -/
theorem not_padding_mem_shapedBuffer (header : Option SegmentHeader)
    (continuation : Option (List UInt8 × List BlockObject))
    (blocks : List (List UInt8 × List BlockObject)) :
    SegmentItem.padding ∉ shapedBuffer header continuation blocks := by
  simp [shapedBuffer]

/-- A segment over its size ends with a block or a continuation that holds the spill over, and
a continuation only once that many of its block's bytes count as archived. -/
theorem fillSegment_shaped_split (shape : BufferShape buffer last)
    (filled : fillSegment [] 1 last buffer = .full taken size last' rest)
    (spilled : recordedHistorySegmentSize < size) :
    ∃ front bytes objectMapping, size - recordedHistorySegmentSize ≤ bytes.length ∧
      (taken = front ++ [.block bytes objectMapping] ∨
        (taken = front ++ [.blockContinuation bytes objectMapping] ∧
          ∃ archived, last'.partialArchived = some archived ∧
            size - recordedHistorySegmentSize ≤ archived)) := by
  obtain ⟨header, continuation, blocks, rfl, partlyArchived⟩ := shape
  obtain ⟨-, front, item, takenEq, itemCases⟩ := fillSegment_shaped filled
  obtain ⟨front', item', takenEq', within⟩ :=
    fillSegment_full_spilled filled (by rw [recordedHistorySegmentSize_eq]; omega) spilled
  rw [takenEq] at takenEq'
  obtain ⟨-, sameItem⟩ := List.append_inj' takenEq' rfl
  rw [List.singleton_inj] at sameItem
  subst sameItem
  rcases itemCases with ⟨bytes, objectMapping, rfl⟩ | ⟨part, rfl, rfl, -, lastEq⟩
  · exact ⟨front, bytes, objectMapping, within, .inl takenEq⟩
  · -- the continuation adds its bytes to those archived before it
    obtain ⟨archived, archivedSome⟩ := Option.isSome_iff_exists.mp (partlyArchived rfl)
    refine ⟨front, part.1, part.2, within, .inr ⟨takenEq, archived + part.1.length, ?_, ?_⟩⟩
    · rw [lastEq, LastArchivedBlock.noteItem, LastArchivedBlock.partialArchived_setPartialArchived,
        archivedSome, Option.getD_some]
    · simp only [SegmentItem.innerBytesSize] at within
      omega

/-- The segment the loop takes holds no padding. -/
theorem fillSegment_shaped_not_padding (shape : BufferShape buffer last)
    (filled : fillSegment [] 1 last buffer = .full taken size last' rest) :
    SegmentItem.padding ∉ taken := by
  obtain ⟨header, continuation, blocks, rfl, -⟩ := shape
  obtain ⟨taken', takenEq, bufferEq, -, -⟩ := fillSegment_full filled
  rw [List.nil_append] at takenEq
  subst takenEq
  intro mem
  exact not_padding_mem_shapedBuffer header continuation blocks
    (bufferEq ▸ List.mem_append_left rest mem)

end Shaped

/-! ## `produce_segment` keeps the shape -/

/-- What a segment of `produce_segment` satisfies: it encodes to at most `SIZE` bytes, so
`produce_archived_segment` cuts it into exactly `NUM_RAW_RECORDS` records; it holds no padding
for `produce_object_mappings`; and when the loop ends over the segment size, the split takes its
last item, a block or a continuation, back by no more than the bytes it holds, and a
continuation's archived bytes by no more than they are. -/
structure SegmentProduced (archiver : Archiver Commitment) (segment : List SegmentItem) : Prop where
  fits : (Segment.encode segment).length ≤ recordedHistorySegmentSize
  records : (Segment.rawRecords segment).length = numRawRecords
  not_padding_mem : SegmentItem.padding ∉ segment
  split : ∀ {taken size last rest},
    fillSegment [] 1 archiver.lastArchivedBlock archiver.buffer = .full taken size last rest →
      recordedHistorySegmentSize < size →
        ∃ front bytes objectMapping, size - recordedHistorySegmentSize ≤ bytes.length ∧
          (taken = front ++ [.block bytes objectMapping] ∨
            (taken = front ++ [.blockContinuation bytes objectMapping] ∧
              ∃ archived, last.partialArchived = some archived ∧
                size - recordedHistorySegmentSize ≤ archived))

section Produce

variable {coding : ArchiverCoding Commitment Witness} {incremental : Bool}
  {archiver archiver' : Archiver Commitment} {segment : List SegmentItem}

/-- Every segment of a shaped buffer satisfies `SegmentProduced`. -/
theorem Archiver.produceSegment_produced
    (shape : BufferShape archiver.buffer archiver.lastArchivedBlock)
    (produced : archiver.produceSegment coding incremental = (some segment, archiver')) :
    SegmentProduced archiver segment := by
  obtain ⟨taken, size, last, rest, filled, outcome⟩ := Archiver.produceSegment_eq_some produced
  obtain ⟨taken', takenEq, -, sized, -⟩ := fillSegment_full filled
  rw [List.nil_append] at takenEq
  subst takenEq
  have noPadding := fillSegment_shaped_not_padding shape filled
  -- the segment fits: as the loop left it, or with its last item cut by the spill over
  have fits : (Segment.encode segment).length ≤ recordedHistorySegmentSize := by
    rw [Segment.length_encode]
    rcases outcome with ⟨within, rfl, -⟩ | ⟨spilled, rfl, -⟩
    · omega
    · obtain ⟨front, bytes, objectMapping, within, shaped⟩ :=
        fillSegment_shaped_split shape filled spilled
      rcases shaped with rfl | ⟨rfl, -⟩
      · rw [spillLastItem_block]
        dsimp only
        have cut : bufferSize (front ++ [.blockStart
              (bytes.take (bytes.length - (size - recordedHistorySegmentSize)))
              (splitObjectMapping (bytes.length - (size - recordedHistorySegmentSize))
                objectMapping).1]) + (size - recordedHistorySegmentSize) ≤
            bufferSize (front ++ [.block bytes objectMapping]) :=
          bufferSize_take_add_le _ front bytes (by simp)
            (SegmentItem.encodedSize_block bytes objectMapping) within
        omega
      · rw [spillLastItem_blockContinuation]
        dsimp only
        have cut : bufferSize (front ++ [.blockContinuation
              (bytes.take (bytes.length - (size - recordedHistorySegmentSize)))
              (splitObjectMapping (bytes.length - (size - recordedHistorySegmentSize))
                objectMapping).1]) + (size - recordedHistorySegmentSize) ≤
            bufferSize (front ++ [.blockContinuation bytes objectMapping]) :=
          bufferSize_take_add_le _ front bytes (by simp)
            (SegmentItem.encodedSize_blockContinuation bytes objectMapping) within
        omega
  refine ⟨fits, Segment.length_rawRecords fits, ?_,
    fun filled' spilled => fillSegment_shaped_split shape filled' spilled⟩
  rcases outcome with ⟨-, rfl, -⟩ | ⟨spilled, rfl, -⟩
  · exact noPadding
  · -- the split replaces the last item by a part of it
    obtain ⟨front, bytes, objectMapping, -, shaped⟩ :=
      fillSegment_shaped_split shape filled spilled
    rcases shaped with rfl | ⟨rfl, -⟩
    · rw [spillLastItem_block]
      simpa using noPadding
    · rw [spillLastItem_blockContinuation]
      simpa using noPadding

/-- After a segment the buffer holds the continuation of a split block, if any, then whole
blocks. -/
theorem Archiver.produceSegment_bufferShape
    (shape : BufferShape archiver.buffer archiver.lastArchivedBlock)
    (produced : archiver.produceSegment coding incremental = (some segment, archiver')) :
    ∃ continuation blocks, archiver'.buffer = shapedBuffer none continuation blocks ∧
      (continuation.isSome → archiver'.lastArchivedBlock.partialArchived.isSome) := by
  obtain ⟨taken, size, last, rest, filled, outcome⟩ := Archiver.produceSegment_eq_some produced
  have filled' := filled
  obtain ⟨header, continuation, blocks, bufferEq, partlyArchived⟩ := shape
  rw [bufferEq] at filled'
  obtain ⟨⟨kept, rfl⟩, -⟩ := fillSegment_shaped filled'
  rcases outcome with ⟨-, -, rfl⟩ | ⟨spilled, -, rfl⟩
  · exact ⟨none, kept, by simp [shapedBuffer], by simp⟩
  · -- the split puts the rest of the last item back as a continuation
    obtain ⟨front, bytes, objectMapping, -, shaped⟩ := fillSegment_shaped_split
      ⟨header, continuation, blocks, bufferEq, partlyArchived⟩ filled spilled
    rcases shaped with rfl | ⟨rfl, -⟩
    · rw [spillLastItem_block]
      exact ⟨some (bytes.drop (bytes.length - (size - recordedHistorySegmentSize)),
        (splitObjectMapping (bytes.length - (size - recordedHistorySegmentSize)) objectMapping).2),
        kept, by simp [shapedBuffer], by simp⟩
    · rw [spillLastItem_blockContinuation]
      exact ⟨some (bytes.drop (bytes.length - (size - recordedHistorySegmentSize)),
        (splitObjectMapping (bytes.length - (size - recordedHistorySegmentSize)) objectMapping).2),
        kept, by simp [shapedBuffer], by simp⟩

end Produce

/-! ## Runs of the archiver -/

/-- The header of a segment goes to the front of a buffer that has none. -/
theorem BufferShape.cons_header {buffer : List SegmentItem} {last : LastArchivedBlock}
    (shaped : ∃ continuation blocks, buffer = shapedBuffer none continuation blocks ∧
      (continuation.isSome → last.partialArchived.isSome)) (header : SegmentHeader) :
    BufferShape (.parentSegmentHeader header :: buffer) last := by
  obtain ⟨continuation, blocks, rfl, partlyArchived⟩ := shaped
  exact ⟨some header, continuation, blocks, by simp [shapedBuffer], partlyArchived⟩

section Run

variable (coding : ArchiverCoding Commitment Witness)

/-- A segment and its archiving keep the shape: the header goes in front of what the segment
left. -/
theorem Archiver.archived_bufferShape {incremental : Bool} {archiver archiver' : Archiver Commitment}
    {segment : List SegmentItem} (shape : BufferShape archiver.buffer archiver.lastArchivedBlock)
    (produced : archiver.produceSegment coding incremental = (some segment, archiver')) :
    BufferShape
      (archiver'.produceArchivedSegment coding (produceObjectMappings archiver'.segmentIndex segment).2).2.buffer
      (archiver'.produceArchivedSegment coding
        (produceObjectMappings archiver'.segmentIndex segment).2).2.lastArchivedBlock := by
  rw [Archiver.produceArchivedSegment_buffer]
  exact BufferShape.cons_header (Archiver.produceSegment_bufferShape shape produced) _

/-- The loop of `add_block` keeps the shape. -/
theorem Archiver.produceSegments_bufferShape (incremental : Bool) :
    ∀ (size : ℕ) {archiver : Archiver Commitment}, bufferSize archiver.buffer = size →
      BufferShape archiver.buffer archiver.lastArchivedBlock →
        BufferShape (archiver.produceSegments coding incremental).2.2.buffer
          (archiver.produceSegments coding incremental).2.2.lastArchivedBlock := by
  intro size
  induction size using Nat.strongRecOn with
  | _ size ih =>
  intro archiver sized shape
  rcases produced : archiver.produceSegment coding incremental with ⟨_ | segment, archiver'⟩
  · rw [Archiver.produceSegments_of_none produced]
    obtain ⟨sameBuffer, sameLast⟩ := Archiver.produceSegment_eq_none produced
    rw [sameBuffer, sameLast]
    exact shape
  · rw [Archiver.produceSegments_of_some produced]
    -- the next call starts from a smaller buffer of the same shape
    have shorter : bufferSize (archiver'.produceArchivedSegment coding
        (produceObjectMappings archiver'.segmentIndex segment).2).2.buffer < size :=
      sized ▸ Nat.lt_of_le_of_lt (bufferSize_produceArchivedSegment coding archiver' _)
        (bufferSize_produceSegment_lt produced)
    exact ih _ shorter rfl (Archiver.archived_bufferShape coding shape produced)

/-- `add_block` keeps the shape. -/
theorem Archiver.addBlock_bufferShape {archiver : Archiver Commitment}
    (shape : BufferShape archiver.buffer archiver.lastArchivedBlock) (bytes : List UInt8)
    (objectMapping : List BlockObject) (incremental : Bool) :
    BufferShape (archiver.addBlock coding bytes objectMapping incremental).2.buffer
      (archiver.addBlock coding bytes objectMapping incremental).2.lastArchivedBlock := by
  have added : BufferShape
      ({ archiver with buffer := archiver.buffer ++ [.block bytes objectMapping] } :
        Archiver Commitment).buffer archiver.lastArchivedBlock :=
    shape.append_block bytes objectMapping
  rcases produced : ({ archiver with buffer := archiver.buffer ++ [.block bytes objectMapping] } :
      Archiver Commitment).produceSegments coding incremental with ⟨segments, objects, last⟩
  have looped := Archiver.produceSegments_bufferShape coding incremental _ rfl added
  rw [produced] at looped
  rw [Archiver.addBlock_of_produceSegments archiver produced]
  exact looped.map_withoutMapping

/-- `with_initial_state` starts from the header and the continuation of its last block. -/
theorem Archiver.withInitialState_bufferShape {segmentHeader : SegmentHeader}
    {encodedBlock : List UInt8} {objectMapping : List BlockObject} {archiver : Archiver Commitment}
    (initial : Archiver.withInitialState coding segmentHeader encodedBlock objectMapping =
      .ok archiver) :
    BufferShape archiver.buffer archiver.lastArchivedBlock := by
  unfold Archiver.withInitialState at initial
  dsimp only at initial
  split at initial
  · cases initial
    exact ⟨some segmentHeader, none, [], rfl, by simp⟩
  · rename_i archivedBlockBytes archived
    split_ifs at initial
    cases initial
    -- the part of the block not archived yet follows the header
    exact ⟨some segmentHeader, some (encodedBlock.drop archivedBlockBytes,
      (objectMapping.filter (archivedBlockBytes ≤ ·.offset)).map fun object =>
        { object with offset := object.offset - archivedBlockBytes }), [], by simp [shapedBuffer],
      fun _ => by simp [archived]⟩

end Run

/-- The states of an archiver: made by `Archiver::new` or `with_initial_state`, then given
blocks by `add_block`, each call with its own choice of incremental commitments. -/
inductive Archiver.Reachable (coding : ArchiverCoding Commitment Witness) :
    Archiver Commitment → Prop
  | new : Archiver.Reachable coding Archiver.new
  | withInitialState {segmentHeader : SegmentHeader} {encodedBlock : List UInt8}
      {objectMapping : List BlockObject} {archiver : Archiver Commitment} :
      Archiver.withInitialState coding segmentHeader encodedBlock objectMapping = .ok archiver →
        Archiver.Reachable coding archiver
  | addBlock {archiver : Archiver Commitment} (bytes : List UInt8) (objectMapping : List BlockObject)
      (incremental : Bool) :
      Archiver.Reachable coding archiver →
        Archiver.Reachable coding (archiver.addBlock coding bytes objectMapping incremental).2

/-- The states in which `add_block` calls `produce_segment`, with the choice of that call: the
state with the block added, and the state after each segment it archives. -/
inductive Archiver.Visited (coding : ArchiverCoding Commitment Witness) :
    Bool → Archiver Commitment → Prop
  | added {archiver : Archiver Commitment} (bytes : List UInt8) (objectMapping : List BlockObject)
      (incremental : Bool) :
      Archiver.Reachable coding archiver →
        Archiver.Visited coding incremental
          { archiver with buffer := archiver.buffer ++ [.block bytes objectMapping] }
  | archived {incremental : Bool} {archiver archiver' : Archiver Commitment}
      {segment : List SegmentItem} :
      Archiver.Visited coding incremental archiver →
        archiver.produceSegment coding incremental = (some segment, archiver') →
          Archiver.Visited coding incremental
            (archiver'.produceArchivedSegment coding
              (produceObjectMappings archiver'.segmentIndex segment).2).2

variable {coding : ArchiverCoding Commitment Witness}

theorem Archiver.Reachable.bufferShape {archiver : Archiver Commitment}
    (reachable : archiver.Reachable coding) :
    BufferShape archiver.buffer archiver.lastArchivedBlock := by
  induction reachable with
  | new => exact BufferShape.nil
  | withInitialState initial => exact Archiver.withInitialState_bufferShape coding initial
  | addBlock bytes objectMapping incremental _ shape =>
    exact Archiver.addBlock_bufferShape coding shape bytes objectMapping incremental

theorem Archiver.Visited.bufferShape {incremental : Bool} {archiver : Archiver Commitment}
    (visited : archiver.Visited coding incremental) :
    BufferShape archiver.buffer archiver.lastArchivedBlock := by
  induction visited with
  | added bytes objectMapping incremental reachable =>
    exact reachable.bufferShape.append_block bytes objectMapping
  | archived _ produced shape => exact Archiver.archived_bufferShape coding shape produced

/-- In every state of the archiver the buffer is shaped; and in every state in which `add_block`
calls `produce_segment` it is shaped too, and the segment returned satisfies
`SegmentProduced`. -/
theorem archiver_buffer_invariant_and_segment_bound (coding : ArchiverCoding Commitment Witness) :
    (∀ archiver : Archiver Commitment, archiver.Reachable coding →
      BufferShape archiver.buffer archiver.lastArchivedBlock) ∧
    ∀ (incremental : Bool) (archiver : Archiver Commitment), archiver.Visited coding incremental →
      BufferShape archiver.buffer archiver.lastArchivedBlock ∧
        ∀ segment archiver', archiver.produceSegment coding incremental = (some segment, archiver') →
          SegmentProduced archiver segment :=
  ⟨fun _ reachable => reachable.bufferShape, fun _ _ visited =>
    ⟨visited.bufferShape, fun _ _ produced =>
      Archiver.produceSegment_produced visited.bufferShape produced⟩⟩

end Subspace.Archiving
