/-
GridFlux/UploadClient.lean

The frames of an upload client (`core/io/file_transfer_client.cpp`).

Every stream sends a SESSION_INIT and reads the missing ranges it is answered
with; then, of each of its own chunks, it sends what is missing in pieces of at
most one buffer, each range followed by its CHUNK_COMPLETE, and at the end a FIN.
The options that make a client stop early or send a chunk badly, which are there
for tests, are off.  Whatever the answer, a stream sends nothing but bytes of the
source under their own offsets (`streamFrames_honest`).
-/
import GridFlux.FrameCodec
import GridFlux.SendPlan
import GridFlux.VerifiedChunks

namespace GridFlux

open TextCodec

/-- An upload client: what its streams have in common. -/
structure UploadClient where
  transferId : Bytes
  source : Bytes
  chunkSize : UInt64
  connections : Nat
  bufferSize : UInt32
  checksumBackend : ChecksumBackend
  hardware : Bool
  addressable : source.length < 2 ^ 64
  buffered : bufferSize ≠ 0

namespace UploadClient

variable (client : UploadClient)

def totalSize : UInt64 := UInt64.ofNat client.source.length

theorem totalSize_toNat : client.totalSize.toNat = client.source.length :=
  UInt64.toNat_ofNat_of_lt' client.addressable

/-! ### Frames -/

def sessionInit (resume : Bool) : SessionInitPayload where
  mode := if resume then .resume else .new
  transferId := client.transferId
  totalSize := client.totalSize
  chunkSize := client.chunkSize
  checksumAlgorithm := .crc32c

/-- The frame of `sendSessionInitAndReadMissingRanges`. -/
def sessionInitFrame (resume : Bool) (streamId : Nat) : Except Status (FrameHeader × Bytes) := do
  let payload ← encodeSessionInitPayload (client.sessionInit resume)
  require (payload.length ≤ client.bufferSize.toNat)
    (.invalidArgument (ascii "SessionInit payload exceeds buffer size"))
  return ({ type := .sessionInit, streamId := UInt32.ofNat streamId,
            payloadSize := UInt32.ofNat payload.length, totalSize := client.totalSize }, payload)

/-- The pieces in which `sendChunkRange` sends a range. -/
def pieces (range : CompletedRange) : List (Nat × Nat) :=
  pieceSpans client.bufferSize.toNat (range.end - range.begin) range.begin
    (range.end - range.begin)

def dataFrame (streamId : Nat) (chunk : ChunkRange) (piece : Nat × Nat) : FrameHeader × Bytes :=
  ({ type := .data, streamId := UInt32.ofNat streamId, chunkId := UInt64.ofNat chunk.chunkId,
     offset := UInt64.ofNat piece.1, payloadSize := UInt32.ofNat piece.2,
     totalSize := client.totalSize },
    World.slice client.source piece.1 piece.2)

/-- The checksum `sendChunkRange` computes along the way. -/
def rangeChecksum (range : CompletedRange) : ChecksumValue :=
  let computer := (client.pieces range).foldl
    (fun (computer : ChecksumComputer) piece =>
      computer.update client.hardware (World.slice client.source piece.1 piece.2))
    (.new client.hardware .crc32c client.checksumBackend)
  computer.finalize

def chunkCompleteFrame (streamId : Nat) (sent : SentRange) :
    Except Status (FrameHeader × Bytes) := do
  let payload ← encodeChunkCompletePayload {
    chunkId := UInt64.ofNat sent.chunk.chunkId
    offset := UInt64.ofNat sent.range.begin
    length := UInt64.ofNat (sent.range.end - sent.range.begin)
    checksum := client.rangeChecksum sent.range }
  return ({ type := .chunkComplete, streamId := UInt32.ofNat streamId,
            chunkId := UInt64.ofNat sent.chunk.chunkId, offset := UInt64.ofNat sent.range.begin,
            payloadSize := UInt32.ofNat payload.length, totalSize := client.totalSize }, payload)

def finFrame (streamId : Nat) : FrameHeader × Bytes :=
  ({ type := .fin, streamId := UInt32.ofNat streamId, totalSize := client.totalSize }, [])

/-- The ranges of `sendStream`, each sent by `sendChunkRange`, and the FIN; the
stream ends early when a CHUNK_COMPLETE cannot be encoded. -/
def rangeFrames (streamId : Nat) : List SentRange → List (FrameHeader × Bytes)
  | [] => [client.finFrame streamId]
  | sent :: rest =>
      (client.pieces sent.range).map (client.dataFrame streamId sent.chunk) ++
        match client.chunkCompleteFrame streamId sent with
        | .error _ => []
        | .ok frame => frame :: rangeFrames streamId rest

/-- What a stream sends after its answer. -/
def streamFrames (streamId : Nat) (missingRanges : List CompletedRange) :
    List (FrameHeader × Bytes) :=
  match planChunks client.source.length client.chunkSize.toNat client.connections with
  | .error _ => []
  | .ok chunks =>
      client.rangeFrames streamId (FileTransferClient.sendStream chunks streamId missingRanges)

/-! ### What the client sends is the source -/

/-- A frame as this client sends them: of the length its header says, with bytes
of the source under their own offset, and asking for this transfer. -/
structure Honest (header : FrameHeader) (payload : Bytes) : Prop where
  length : payload.length = header.payloadSize.toNat
  data : header.type = .data →
    payload = World.slice client.source header.offset.toNat payload.length
  sessionInit : header.type = .sessionInit →
    ∃ resume, decodeSessionInitPayload payload = .ok (client.sessionInit resume)

variable {client}

theorem sessionInitFrame_honest {resume : Bool} {streamId : Nat} {frame : FrameHeader × Bytes}
    (h : client.sessionInitFrame resume streamId = .ok frame) :
    client.Honest frame.1 frame.2 := by
  simp only [sessionInitFrame, bind_eq_ok, require_eq_ok] at h
  obtain ⟨payload, hencode, _, hle, heq⟩ := h
  rw [← Except.ok.inj heq]
  refine ⟨?_, fun htype => (by cases htype), fun _ => ⟨resume, ?_⟩⟩
  · have hlt := client.bufferSize.toNat_lt
    exact (UInt32.toNat_ofNat_of_lt' (by show payload.length < 4294967296; omega)).symm
  · exact decodeSessionInitPayload_encode hencode

theorem chunkCompleteFrame_honest {streamId : Nat} {sent : SentRange}
    {frame : FrameHeader × Bytes} (h : client.chunkCompleteFrame streamId sent = .ok frame) :
    client.Honest frame.1 frame.2 := by
  simp only [chunkCompleteFrame, bind_eq_ok] at h
  obtain ⟨payload, hencode, heq⟩ := h
  rw [← Except.ok.inj heq]
  refine ⟨?_, fun htype => (by cases htype), fun htype => (by cases htype)⟩
  have hdecode := decodeChunkCompletePayload_encode hencode
  simp only [decodeChunkCompletePayload, bind_eq_ok, require_eq_ok] at hdecode
  obtain ⟨_, hlength, -⟩ := hdecode
  rw [hlength]
  rfl

theorem finFrame_honest (streamId : Nat) :
    client.Honest (client.finFrame streamId).1 (client.finFrame streamId).2 :=
  ⟨rfl, fun htype => (by cases htype), fun htype => (by cases htype)⟩

/-- The pieces of a range end inside it, and fit the buffer. -/
theorem piece_bounds {range : CompletedRange} {piece : Nat × Nat}
    (h : piece ∈ client.pieces range) :
    piece.1 + piece.2 ≤ range.end ∧ piece.2 ≤ client.bufferSize.toNat := by
  have hpos : 0 < client.bufferSize.toNat := by
    apply Nat.pos_of_ne_zero
    exact fun hzero => client.buffered (UInt32.toNat_inj.mp hzero)
  obtain ⟨hpiece, hle, hend⟩ := (pieceSpans_bounds hpos le_rfl).1 piece h
  exact ⟨by omega, pieceSpans_le piece h⟩

/-- A piece that lies inside the source. -/
theorem dataFrame_honest (streamId : Nat) (chunk : ChunkRange) {piece : Nat × Nat}
    (hinside : piece.1 + piece.2 ≤ client.source.length)
    (hle : piece.2 ≤ client.bufferSize.toNat) :
    client.Honest (client.dataFrame streamId chunk piece).1
      (client.dataFrame streamId chunk piece).2 := by
  have haddressable := client.addressable
  have hlt := client.bufferSize.toNat_lt
  have hlength : (World.slice client.source piece.1 piece.2).length = piece.2 :=
    World.length_slice hinside
  refine ⟨?_, fun _ => ?_, fun htype => (by cases htype)⟩
  · show (World.slice client.source piece.1 piece.2).length = (UInt32.ofNat piece.2).toNat
    rw [hlength, UInt32.toNat_ofNat_of_lt' (by show piece.2 < 4294967296; omega)]
  · show World.slice client.source piece.1 piece.2 = World.slice client.source
      (UInt64.ofNat piece.1).toNat (World.slice client.source piece.1 piece.2).length
    rw [hlength, UInt64.toNat_ofNat_of_lt' (by show piece.1 < 18446744073709551616; omega)]

/-- What is sent of a range of the source. -/
theorem rangeFrames_honest (streamId : Nat) {sents : List SentRange}
    (hinside : ∀ sent ∈ sents, sent.range.end ≤ client.source.length) :
    ∀ frame ∈ client.rangeFrames streamId sents, client.Honest frame.1 frame.2 := by
  induction sents with
  | nil =>
      intro frame hframe
      rw [rangeFrames, List.mem_singleton] at hframe
      rw [hframe]
      exact finFrame_honest streamId
  | cons sent rest ih =>
      obtain ⟨hsent, hrest⟩ := List.forall_mem_cons.mp hinside
      intro frame hframe
      rw [rangeFrames, List.mem_append, List.mem_map] at hframe
      rcases hframe with ⟨piece, hpiece, rfl⟩ | hframe
      · obtain ⟨hlast, hle⟩ := piece_bounds hpiece
        exact dataFrame_honest streamId sent.chunk (hlast.trans hsent) hle
      · cases hcomplete : client.chunkCompleteFrame streamId sent with
        | error e => simp [hcomplete] at hframe
        | ok complete =>
            simp only [hcomplete, List.mem_cons] at hframe
            rcases hframe with rfl | hframe
            · exact chunkCompleteFrame_honest hcomplete
            · exact ih hrest frame hframe

/-- **Whatever a stream is answered**, it sends bytes of the source under their
own offsets. -/
theorem streamFrames_honest (streamId : Nat) (missingRanges : List CompletedRange) :
    ∀ frame ∈ client.streamFrames streamId missingRanges, client.Honest frame.1 frame.2 := by
  rw [streamFrames]
  cases hplan : planChunks client.source.length client.chunkSize.toNat client.connections with
  | error e => exact fun _ h => (List.not_mem_nil h).elim
  | ok chunks =>
      apply rangeFrames_honest
      intro sent hsent
      obtain ⟨hchunk, -, -, -, hend⟩ :=
        FileTransferClient.keepsToOwn chunks streamId missingRanges sent hsent
      exact hend.trans (planChunks_bounds hplan hchunk).2.1

end UploadClient

end GridFlux
