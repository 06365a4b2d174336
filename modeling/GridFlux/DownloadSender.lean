/-
GridFlux/DownloadSender.lean

The frames of a download sender (`core/io/file_download_sender.cpp`).

The server sends what an upload client sends, frame by frame, with two
differences: its SESSION_INIT names the source path, and of its own chunks a
stream sends those that are missing somewhere as a whole.  Whatever the answer,
a stream sends nothing but bytes of the source under their own offsets
(`streamFrames_served`).
-/
import GridFlux.UploadClient

namespace GridFlux

open TextCodec

/-- A download sender: an upload client that knows its source path. -/
structure DownloadSender extends UploadClient where
  sourcePath : Bytes

/-- A frame that serves the source: its bytes are those of the source under
their own offset, its session has the size of the source. -/
structure ServedFrom (source : Bytes) (header : FrameHeader) (payload : Bytes) : Prop where
  data : header.type = .data →
    payload = World.slice source header.offset.toNat payload.length
  sessionInit : header.type = .sessionInit →
    ∃ init, decodeSessionInitPayload payload = .ok init ∧ init.totalSize.toNat = source.length

theorem UploadClient.Honest.served {client : UploadClient} {header : FrameHeader}
    {payload : Bytes} (h : client.Honest header payload) :
    ServedFrom client.source header payload := by
  refine ⟨h.data, fun htype => ?_⟩
  obtain ⟨resume, hdecode⟩ := h.sessionInit htype
  exact ⟨_, hdecode, client.totalSize_toNat⟩

namespace DownloadSender

variable (sender : DownloadSender)

/-- The payload of `sendSessionInit`. -/
def sessionInit (resume : Bool) : SessionInitPayload :=
  { sender.toUploadClient.sessionInit resume with sourcePath := sender.sourcePath }

/-- `sendSessionInit`. -/
def sessionInitFrame (resume : Bool) (streamId : Nat) : Except Status (FrameHeader × Bytes) := do
  let payload ← encodeSessionInitPayload (sender.sessionInit resume)
  require (payload.length ≤ sender.bufferSize.toNat)
    (.invalidArgument (ascii "SessionInit payload exceeds buffer size"))
  return ({ type := .sessionInit, streamId := UInt32.ofNat streamId,
            payloadSize := UInt32.ofNat payload.length, totalSize := sender.totalSize }, payload)

/-- What `sendStream` sends after its answer: a chunk that is a range of its own
is sent by `sendChunk` just as an upload client sends the range. -/
def streamFrames (streamId : Nat) (missingRanges : List CompletedRange) :
    List (FrameHeader × Bytes) :=
  match planChunks sender.source.length sender.chunkSize.toNat sender.connections with
  | .error _ => []
  | .ok chunks =>
      sender.rangeFrames streamId (FileDownloadSender.sendStream chunks streamId missingRanges)

variable {sender}

theorem sessionInitFrame_served {resume : Bool} {streamId : Nat} {frame : FrameHeader × Bytes}
    (h : sender.sessionInitFrame resume streamId = .ok frame) :
    ServedFrom sender.source frame.1 frame.2 := by
  simp only [sessionInitFrame, bind_eq_ok, require_eq_ok] at h
  obtain ⟨payload, hencode, _, -, heq⟩ := h
  rw [← Except.ok.inj heq]
  refine ⟨fun htype => (by cases htype), fun _ => ⟨_, decodeSessionInitPayload_encode hencode, ?_⟩⟩
  exact sender.totalSize_toNat

/-- **Whatever a stream is answered**, it sends bytes of the source under their
own offsets. -/
theorem streamFrames_served (streamId : Nat) (missingRanges : List CompletedRange) :
    ∀ frame ∈ sender.streamFrames streamId missingRanges,
      ServedFrom sender.source frame.1 frame.2 := by
  rw [streamFrames]
  cases hplan : planChunks sender.source.length sender.chunkSize.toNat sender.connections with
  | error e => exact fun _ h => (List.not_mem_nil h).elim
  | ok chunks =>
      intro frame hframe
      refine (UploadClient.rangeFrames_honest streamId (fun sent hsent => ?_) frame hframe).served
      obtain ⟨hchunk, -, -, -, hend⟩ :=
        FileDownloadSender.keepsToOwn hplan streamId missingRanges sent hsent
      exact hend.trans (planChunks_bounds hplan hchunk).2.1

end DownloadSender

end GridFlux
