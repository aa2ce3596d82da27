import Subspace.Archiving.Archiver

/-!
# The reconstructor

`Reconstructor` of `subspace-archiving/src/reconstructor.rs`: it takes the pieces of archived
segments, in order, and gives back the blocks they hold with their numbers.

`reconstruct_segment` copies the records of the source pieces (the even pieces) when they are
all present and otherwise recovers them with the erasure coding, here the function
`recoverSourceRecords`. It then decodes the segment from the records. `add_segment` walks the
decoded items and keeps the start of a block that continues in the next segment. Block numbers
come from the header of the previous segment, the first item of every segment after the first.
-/

namespace Subspace.Archiving

/-- `ReconstructorError`. -/
inductive ReconstructorError
  /-- `DataShardsReconstruction`. -/
  | dataShardsReconstruction (error : String)
  /-- `SegmentDecoding`. -/
  | segmentDecoding
  /-- `IncorrectSegmentOrder { expected_segment_index, actual_segment_index }`. -/
  | incorrectSegmentOrder (expectedSegmentIndex actualSegmentIndex : ℕ)
deriving DecidableEq, Repr

/-- `ReconstructedContents`. -/
structure ReconstructedContents where
  segmentHeader : Option SegmentHeader
  blocks : List (ℕ × List UInt8)
deriving DecidableEq

/-- `Reconstructor`, without its erasure coding instance. -/
structure Reconstructor where
  lastSegmentIndex : Option ℕ
  partialBlock : Option (List UInt8)
deriving DecidableEq

/-- `Reconstructor::new`. -/
def Reconstructor.new : Reconstructor := ⟨none, none⟩

/-- `ErasureCoding::recover` as the reconstructor uses it: the source records from the records
of the pieces that are present. -/
structure ReconstructorCoding where
  recoverSourceRecords : List (Option (List UInt8)) → Except String (List (List UInt8))

/-- `step_by(2)`: the first, third, fifth element and so on. -/
def everyOther {α : Type} : List α → List α
  | [] => []
  | [first] => [first]
  | first :: _ :: rest => first :: everyOther rest

variable {Commitment Witness : Type}

/-- `Reconstructor::reconstruct_segment`: the items of the segment. The source records are the
records of the even pieces when they are all present (a record that no piece gives stays zero);
otherwise the erasure coding recovers them. -/
def reconstructSegment (coding : ReconstructorCoding)
    (segmentPieces : List (Option (Piece Commitment Witness))) :
    Except ReconstructorError (List SegmentItem) := do
  let sourcePieces := (everyOther segmentPieces).take numRawRecords
  let segmentData ←
    match sourcePieces.mapM id with
    | some pieces =>
      pure (pieces.map Piece.record ++
        List.replicate (numRawRecords - pieces.length) (List.replicate rawRecordSize 0))
    | none =>
      (coding.recoverSourceRecords (segmentPieces.map (·.map Piece.record))).mapError
        .dataShardsReconstruction
  match Segment.decode segmentData.flatten with
  | some items => pure items
  | none => throw .segmentDecoding

/-- What `add_segment` keeps while it walks the items of a segment. -/
structure AddSegmentState where
  contents : ReconstructedContents
  nextBlockNumber : ℕ
  partialBlock : List UInt8
  lastSegmentIndex : Option ℕ

/-- A block the segment has seen to its end is added under the next number. -/
def AddSegmentState.pushBlock (state : AddSegmentState) (bytes : List UInt8) : AddSegmentState :=
  { state with
    contents := { state.contents with blocks := state.contents.blocks ++ [(state.nextBlockNumber, bytes)] }
    nextBlockNumber := state.nextBlockNumber + 1 }

/-- A block started before is complete once the next block starts. -/
def AddSegmentState.flushPartialBlock (state : AddSegmentState) : AddSegmentState :=
  if state.partialBlock ≠ [] then { state.pushBlock state.partialBlock with partialBlock := [] }
  else state

/-- The header of the previous segment gives the number of its last block. -/
def AddSegmentState.noteHeader (state : AddSegmentState) (segmentHeader : SegmentHeader) :
    AddSegmentState :=
  let noted := { state with
    lastSegmentIndex := some (segmentHeader.segmentIndex + 1)
    contents := { state.contents with segmentHeader := some segmentHeader } }
  let number := segmentHeader.lastArchivedBlock.number
  match segmentHeader.lastArchivedBlock.archivedProgress with
  | .complete =>
    { noted with
      contents := { noted.contents with
        blocks := noted.contents.blocks ++ [(noted.nextBlockNumber, noted.partialBlock)] }
      partialBlock := []
      nextBlockNumber := number + 1 }
  | .partialBytes _ =>
    -- without the start of the block it cannot be recovered, so its number is skipped
    { noted with nextBlockNumber := if noted.partialBlock = [] then number + 1 else number }

/-- One item of the loop of `add_segment`. A header whose segment does not follow the last one
is an error, which also reports the last segment index at that point. -/
def AddSegmentState.step (state : AddSegmentState) :
    SegmentItem → Except (ReconstructorError × Option ℕ) AddSegmentState
  | .padding => .ok state
  | .block bytes _ => .ok (state.flushPartialBlock.pushBlock bytes)
  | .blockStart bytes _ => .ok { state.flushPartialBlock with partialBlock := bytes }
  | .blockContinuation bytes _ =>
    -- a continuation of a block started in a segment not seen is dropped
    if state.partialBlock = [] then .ok state
    else .ok { state with partialBlock := state.partialBlock ++ bytes }
  | .parentSegmentHeader segmentHeader =>
    let segmentIndex := segmentHeader.segmentIndex
    match state.lastSegmentIndex with
    | some lastSegmentIndex =>
      if lastSegmentIndex ≠ segmentIndex then
        .error (.incorrectSegmentOrder (lastSegmentIndex + 1) (segmentIndex + 1),
          state.lastSegmentIndex)
      else .ok (state.noteHeader segmentHeader)
    | none => .ok (state.noteHeader segmentHeader)

/-- The loop of `add_segment`. -/
def AddSegmentState.run (state : AddSegmentState) :
    List SegmentItem → Except (ReconstructorError × Option ℕ) AddSegmentState
  | [] => .ok state
  | item :: rest => do
    let state ← state.step item
    state.run rest

/-- `Reconstructor::add_segment`: the blocks a segment completes, and the reconstructor to add
the next segment to. The partial block is taken out of the reconstructor before the loop, so an
error in the loop loses it. -/
def Reconstructor.addSegment (coding : ReconstructorCoding) (reconstructor : Reconstructor)
    (segmentPieces : List (Option (Piece Commitment Witness))) :
    Except ReconstructorError ReconstructedContents × Reconstructor :=
  match reconstructSegment coding segmentPieces with
  | .error error => (.error error, reconstructor)
  | .ok items =>
    let start : AddSegmentState :=
      { contents := ⟨none, []⟩
        nextBlockNumber := 0
        partialBlock := reconstructor.partialBlock.getD []
        lastSegmentIndex := reconstructor.lastSegmentIndex }
    match start.run items with
    | .error (error, lastSegmentIndex) => (.error error, ⟨lastSegmentIndex, none⟩)
    | .ok state =>
      (.ok state.contents,
        ⟨some (state.lastSegmentIndex.getD 0),
          if state.partialBlock ≠ [] then some state.partialBlock else none⟩)

end Subspace.Archiving
