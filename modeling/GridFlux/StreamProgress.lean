/-
GridFlux/StreamProgress.lean

How far a connection is with the frames of its stream.

A stream that is answered sends the chunks it has left, each in pieces that
follow one another, and a FIN.  `Sends` says that a connection has come to a
certain place in these frames: between two chunks, or within one, with the bytes
up to the next offset taken in.  The next frame is then one the receiver takes:
its header is valid (`processCompletedHeader_chunk`, `processCompletedHeader_fin`),
a piece is contiguous, and a chunk that ends has the range and the checksum the
receiver expects.
-/
import GridFlux.ChunksLeft
import GridFlux.StorReceiver
import GridFlux.UploadAttempts

namespace GridFlux

open HalfOpen TextCodec FileTransferServer

/-! ### Pieces -/

/-- Pieces of at most `limit` bytes that follow one another from `a` to `b`. -/
inductive Tiles (limit : Nat) : List (Nat × Nat) → Nat → Nat → Prop
  | nil {a : Nat} : Tiles limit [] a a
  | cons {a n b : Nat} {pieces : List (Nat × Nat)} (hpos : 0 < n) (hle : n ≤ limit)
      (h : Tiles limit pieces (a + n) b) : Tiles limit ((a, n) :: pieces) a b

theorem Tiles.le {limit a b : Nat} {pieces : List (Nat × Nat)} (h : Tiles limit pieces a b) :
    a ≤ b := by
  induction h with
  | nil => exact le_rfl
  | cons _ _ _ ih => omega

theorem tiles_pieceSpans {limit : Nat} (hlimit : 0 < limit) {fuel offset length : Nat}
    (hfuel : length ≤ fuel) :
    Tiles limit (pieceSpans limit fuel offset length) offset (offset + length) := by
  induction fuel generalizing offset length with
  | zero =>
      obtain rfl : length = 0 := by omega
      exact .nil
  | succ fuel ih =>
      rw [pieceSpans]
      split
      · rename_i hzero
        rw [hzero]
        exact .nil
      · rename_i hne
        have hrest := @ih (offset + min limit length) (length - min limit length) (by omega)
        rw [show offset + min limit length + (length - min limit length) = offset + length by
          omega] at hrest
        exact .cons (by omega) (min_le_left _ _) hrest

/-! ### Frames -/

namespace UploadClient

variable {client : UploadClient}

theorem bufferSize_pos (client : UploadClient) : 0 < client.bufferSize.toNat :=
  Nat.pos_of_ne_zero fun hzero => client.buffered (UInt32.toNat_inj.mp hzero)

theorem sessionInitFrame_eq {resume : Bool} {streamId : Nat} {frame : FrameHeader × Bytes}
    (h : client.sessionInitFrame resume streamId = .ok frame) :
    encodeSessionInitPayload (client.sessionInit resume) = .ok frame.2 ∧
      frame.2.length ≤ client.bufferSize.toNat ∧
      frame.1 = { type := .sessionInit, streamId := UInt32.ofNat streamId,
                  payloadSize := UInt32.ofNat frame.2.length, totalSize := client.totalSize } := by
  simp only [sessionInitFrame, bind_eq_ok, require_eq_ok] at h
  obtain ⟨payload, hencode, _, hle, heq⟩ := h
  obtain rfl := Except.ok.inj heq
  exact ⟨hencode, hle, rfl⟩

/-- Whether there is a SESSION_INIT does not depend on the stream. -/
theorem exists_sessionInitFrame {resume : Bool} {streamId : Nat}
    (h : ∃ frame, client.sessionInitFrame resume streamId = .ok frame) (other : Nat) :
    ∃ frame, client.sessionInitFrame resume other = .ok frame := by
  obtain ⟨frame, hframe⟩ := h
  obtain ⟨hencode, hle, -⟩ := sessionInitFrame_eq hframe
  refine ⟨({ type := .sessionInit, streamId := UInt32.ofNat other,
             payloadSize := UInt32.ofNat frame.2.length, totalSize := client.totalSize },
    frame.2), ?_⟩
  rw [sessionInitFrame, hencode, ok_bind, require_pos hle]
  rfl

theorem chunkCompleteFrame_eq {streamId : Nat} {sent : SentRange} {frame : FrameHeader × Bytes}
    (h : client.chunkCompleteFrame streamId sent = .ok frame) :
    encodeChunkCompletePayload {
        chunkId := UInt64.ofNat sent.chunk.chunkId
        offset := UInt64.ofNat sent.range.begin
        length := UInt64.ofNat (sent.range.end - sent.range.begin)
        checksum := client.rangeChecksum sent.range } = .ok frame.2 ∧
      frame.1 = { type := .chunkComplete, streamId := UInt32.ofNat streamId,
                  chunkId := UInt64.ofNat sent.chunk.chunkId,
                  offset := UInt64.ofNat sent.range.begin,
                  payloadSize := UInt32.ofNat frame.2.length,
                  totalSize := client.totalSize } := by
  simp only [chunkCompleteFrame, bind_eq_ok] at h
  obtain ⟨payload, hencode, heq⟩ := h
  obtain rfl := Except.ok.inj heq
  exact ⟨hencode, rfl⟩

theorem length_chunkComplete {payload : ChunkCompletePayload} {data : Bytes}
    (h : encodeChunkCompletePayload payload = .ok data) : data.length = 32 := by
  have hdecode := decodeChunkCompletePayload_encode h
  simp only [decodeChunkCompletePayload, bind_eq_ok, require_eq_ok] at hdecode
  exact hdecode.choose_spec.1

/-- A chunk of the source can be completed. -/
theorem exists_chunkCompleteFrame (streamId : Nat) {sent : SentRange}
    (hlt : sent.range.begin < sent.range.end) (hend : sent.range.end ≤ client.source.length) :
    ∃ frame, client.chunkCompleteFrame streamId sent = .ok frame := by
  have haddressable := client.addressable
  have hne : UInt64.ofNat (sent.range.end - sent.range.begin) ≠ 0 := by
    intro hzero
    have hnat := congrArg UInt64.toNat hzero
    rw [UInt64.toNat_ofNat_of_lt' (by
      show sent.range.end - sent.range.begin < 18446744073709551616
      omega)] at hnat
    exact absurd hnat (by show sent.range.end - sent.range.begin ≠ 0; omega)
  rw [chunkCompleteFrame, encodeChunkCompletePayload, require_pos hne]
  exact ⟨_, rfl⟩

/-- A frame of a stream that a receiver with buffers of `bufferSize` reads. -/
structure Reads (client : UploadClient) (bufferSize : UInt32) (streamId : Nat)
    (header : FrameHeader) : Prop where
  valid : validateFrameHeader header bufferSize = .ok ()
  stream : header.streamId = UInt32.ofNat streamId
  total : header.totalSize = client.totalSize

variable {bufferSize : UInt32} {streamId : Nat}

theorem sessionInitFrame_reads (hle : client.bufferSize ≤ bufferSize) {resume : Bool}
    {frame : FrameHeader × Bytes} (h : client.sessionInitFrame resume streamId = .ok frame) :
    client.Reads bufferSize streamId frame.1 := by
  obtain ⟨hencode, hlength, hheader⟩ := sessionInitFrame_eq h
  have hlt := client.bufferSize.toNat_lt
  have hsize : (UInt32.ofNat frame.2.length).toNat = frame.2.length :=
    UInt32.toNat_ofNat_of_lt' (by show frame.2.length < 4294967296; omega)
  have hpos : frame.2 ≠ [] := by
    intro hnil
    have hdecode := decodeSessionInitPayload_encode hencode
    rw [hnil] at hdecode
    cases hdecode
  have hpayload : UInt32.ofNat frame.2.length ≠ 0 := by
    intro hzero
    rw [hzero] at hsize
    exact hpos (List.length_eq_zero_iff.mp hsize.symm)
  have hfits : UInt32.ofNat frame.2.length ≤ bufferSize := by
    rw [UInt32.le_iff_toNat_le] at hle ⊢
    omega
  refine ⟨?_, by rw [hheader], by rw [hheader]⟩
  simp [hheader, validateFrameHeader, bind_eq_ok, require_eq_ok, hpayload, hfits]

theorem dataFrame_reads (hle : client.bufferSize ≤ bufferSize) (chunk : ChunkRange)
    {piece : Nat × Nat} (hpos : 0 < piece.2) (hpiece : piece.2 ≤ client.bufferSize.toNat)
    (hinside : piece.1 + piece.2 ≤ client.source.length) :
    client.Reads bufferSize streamId (client.dataFrame streamId chunk piece).1 := by
  have haddressable := client.addressable
  have hlt := client.bufferSize.toNat_lt
  have hsize : (UInt32.ofNat piece.2).toNat = piece.2 :=
    UInt32.toNat_ofNat_of_lt' (by show piece.2 < 4294967296; omega)
  have hoffset : (UInt64.ofNat piece.1).toNat = piece.1 :=
    UInt64.toNat_ofNat_of_lt' (by show piece.1 < 18446744073709551616; omega)
  have htotal := client.totalSize_toNat
  have hne : UInt32.ofNat piece.2 ≠ 0 := by
    intro hzero
    rw [hzero] at hsize
    exact absurd hsize (by show 0 ≠ piece.2; omega)
  have hfits : UInt32.ofNat piece.2 ≤ bufferSize := by
    rw [UInt32.le_iff_toNat_le] at hle ⊢
    omega
  have hbegin : UInt64.ofNat piece.1 ≤ client.totalSize := by
    rw [UInt64.le_iff_toNat_le]
    omega
  have hrange : (UInt32.ofNat piece.2).toUInt64 ≤ client.totalSize - UInt64.ofNat piece.1 := by
    rw [UInt64.le_iff_toNat_le, UInt64.toNat_sub_of_le _ _ hbegin, UInt32.toNat_toUInt64]
    omega
  refine ⟨?_, rfl, rfl⟩
  simp [dataFrame, validateFrameHeader, bind_eq_ok, require_eq_ok, hne, hfits, hbegin, hrange]

theorem chunkCompleteFrame_reads (hle : 32 ≤ bufferSize.toNat) {sent : SentRange}
    {frame : FrameHeader × Bytes} (h : client.chunkCompleteFrame streamId sent = .ok frame) :
    client.Reads bufferSize streamId frame.1 := by
  obtain ⟨hencode, hheader⟩ := chunkCompleteFrame_eq h
  have hfits : (32 : UInt32) ≤ bufferSize := by
    rw [UInt32.le_iff_toNat_le]
    exact hle
  rw [length_chunkComplete hencode] at hheader
  refine ⟨?_, by rw [hheader], by rw [hheader]⟩
  simp [hheader, validateFrameHeader, bind_eq_ok, require_eq_ok, hfits]

theorem finFrame_reads : client.Reads bufferSize streamId (client.finFrame streamId).1 := by
  refine ⟨?_, rfl, rfl⟩
  simp [finFrame, validateFrameHeader, bind_eq_ok, require_eq_ok]

end UploadClient

/-! ### Headers -/

namespace FileTransferServer

/-- A connection between the answer to its SESSION_INIT and its FIN. -/
structure FileServerConnection.Ready (c : FileServerConnection) (streamId : Nat) : Prop where
  hasStream : c.hasStream = true
  stream : c.streamId = streamId
  session : c.sessionReady = true
  unfinished : c.finReceived = false

section Headers

variable {client : UploadClient} {options : FileTransferOptions} {c : FileServerConnection}
  {t : TransferState} {active : ActiveTransfer} {streamId : Nat} {header : FrameHeader}
  (hreads : client.Reads options.bufferSize streamId header) (hlt : streamId < options.connections)
  (hconnections : options.connections ≤ kMaxConnections)

include hreads hlt hconnections

theorem UploadClient.Reads.streamId_toNat : header.streamId.toNat = streamId := by
  rw [hreads.stream]
  have hmax : kMaxConnections = 64 := rfl
  exact UInt32.toNat_ofNat_of_lt' (by show streamId < 4294967296; omega)

/-- The first header of a connection. -/
theorem processCompletedHeader_sessionInit (htype : header.type = .sessionInit)
    (hstream : c.hasStream = false) (hseen : t.streamsSeen[streamId]? ≠ some true) :
    processCompletedHeader options c t (encodeFrameHeader header) =
      .ok ({ c with
              streamId := streamId
              hasStream := true
              currentHeader := header
              readState := .payload },
        { t with streamsSeen := t.streamsSeen.set streamId true }) := by
  have hid := UploadClient.Reads.streamId_toNat hreads hlt hconnections
  simp [processCompletedHeader, validateStream, decodeFrameHeader_encode, replying, check,
    Except.mapError, hreads.valid, htype, hid, hlt, hstream, hseen, require]

variable (hready : c.Ready streamId) (hactive : t.active = some active)
  (hinit : active.init.totalSize = client.totalSize)

include hready hactive hinit

/-- DATA and CHUNK_COMPLETE. -/
theorem processCompletedHeader_chunk
    (htype : header.type = .data ∨ header.type = .chunkComplete) :
    processCompletedHeader options c t (encodeFrameHeader header) =
      .ok ({ c with currentHeader := header, readState := .payload }, t) := by
  have hid := UploadClient.Reads.streamId_toNat hreads hlt hconnections
  rcases htype with htype | htype
  all_goals
    simp [processCompletedHeader, validateStream, validateTransferHeader,
      decodeFrameHeader_encode, replying, check, Except.mapError, hreads.valid, hreads.total,
      htype, hid, hlt, hready.hasStream, hready.stream, hready.session, hactive, hinit, require]

theorem processCompletedHeader_fin (htype : header.type = .fin)
    (hidle : c.chunkActive = false) :
    processCompletedHeader options c t (encodeFrameHeader header) =
      .ok ({ c with currentHeader := header, finReceived := true, readState := .done },
        { t with finConnections := t.finConnections + 1 }) := by
  have hid := UploadClient.Reads.streamId_toNat hreads hlt hconnections
  simp [processCompletedHeader, validateStream, validateTransferHeader, decodeFrameHeader_encode,
    replying, check, Except.mapError, hreads.valid, hreads.total, htype, hid, hlt,
    hready.hasStream, hready.stream, hready.session, hactive, hinit, hidle, require]

end Headers

end FileTransferServer

/-! ### What comes next -/

namespace UploadClient

variable (client : UploadClient)

/-- What a stream sends when all bytes of a chunk are sent. -/
def afterChunk (streamId : Nat) (chunk : ChunkRange) (rest : List ChunkRange) :
    List (FrameHeader × Bytes) :=
  match client.chunkCompleteFrame streamId (.whole chunk) with
  | .error _ => []
  | .ok frame => frame :: client.rangeFrames streamId (rest.map .whole)

/-- A connection, the chunks its stream has left, and the frames still to come. -/
inductive Sends (streamId : Nat) (c : FileServerConnection) :
    List ChunkRange → List (FrameHeader × Bytes) → Prop
  | between (hidle : c.chunkActive = false) (left : List ChunkRange) :
      Sends streamId c left (client.rangeFrames streamId (left.map .whole))
  | within {chunk : ChunkRange} (hactive : c.chunkActive = true)
      (hid : c.activeChunkId = chunk.chunkId) (hoffset : c.activeChunkOffset = chunk.offset)
      {pieces : List (Nat × Nat)}
      (htiles : Tiles client.bufferSize.toNat pieces c.activeChunkNextOffset chunk.range.end)
      (rest : List ChunkRange) :
      Sends streamId c (chunk :: rest)
        (pieces.map (client.dataFrame streamId chunk) ++ client.afterChunk streamId chunk rest)

variable {client} {streamId : Nat} {c : FileServerConnection}

/-- Only the chunk of the connection counts. -/
theorem Sends.congr {left : List ChunkRange} {frames : List (FrameHeader × Bytes)}
    (h : client.Sends streamId c left frames) {c' : FileServerConnection}
    (hactive : c'.chunkActive = c.chunkActive) (hid : c'.activeChunkId = c.activeChunkId)
    (hoffset : c'.activeChunkOffset = c.activeChunkOffset)
    (hnext : c'.activeChunkNextOffset = c.activeChunkNextOffset) :
    client.Sends streamId c' left frames := by
  cases h with
  | between hidle left => exact .between (hactive.trans hidle) left
  | within hin hid' hoffset' htiles rest =>
      rw [← hnext] at htiles
      exact .within (hactive.trans hin) (hid.trans hid') (hoffset.trans hoffset') htiles rest

/-- The next frame: the FIN, a piece of the first chunk that is left, or the
CHUNK_COMPLETE of this chunk. -/
inductive NextFrame (client : UploadClient) (streamId : Nat) (c : FileServerConnection) :
    List ChunkRange → FrameHeader × Bytes → List (FrameHeader × Bytes) → Prop
  | fin (hidle : c.chunkActive = false) :
      NextFrame client streamId c [] (client.finFrame streamId) []
  | data {chunk : ChunkRange} {rest : List ChunkRange} {piece : Nat × Nat}
      {pieces : List (Nat × Nat)}
      (hactive : c.chunkActive = true → c.activeChunkId = chunk.chunkId ∧
        c.activeChunkOffset = chunk.offset ∧ c.activeChunkNextOffset = piece.1)
      (hidle : c.chunkActive = false → piece.1 = chunk.offset) (hpos : 0 < piece.2)
      (hle : piece.2 ≤ client.bufferSize.toNat)
      (htiles : Tiles client.bufferSize.toNat pieces (piece.1 + piece.2) chunk.range.end) :
      NextFrame client streamId c (chunk :: rest) (client.dataFrame streamId chunk piece)
        (pieces.map (client.dataFrame streamId chunk) ++ client.afterChunk streamId chunk rest)
  | complete {chunk : ChunkRange} {rest : List ChunkRange} {frame : FrameHeader × Bytes}
      (hactive : c.chunkActive = true) (hid : c.activeChunkId = chunk.chunkId)
      (hoffset : c.activeChunkOffset = chunk.offset)
      (hnext : c.activeChunkNextOffset = chunk.range.end)
      (hframe : client.chunkCompleteFrame streamId (.whole chunk) = .ok frame) :
      NextFrame client streamId c (chunk :: rest) frame
        (client.rangeFrames streamId (rest.map .whole))

theorem Sends.next {left : List ChunkRange} (hpos : ∀ chunk ∈ left, 0 < chunk.length)
    {frame : FrameHeader × Bytes} {frames : List (FrameHeader × Bytes)}
    (h : client.Sends streamId c left (frame :: frames)) :
    NextFrame client streamId c left frame frames := by
  generalize hall : frame :: frames = all at h
  cases h with
  | between hidle left =>
      cases left with
      | nil =>
          obtain ⟨rfl, rfl⟩ := List.cons.inj hall
          exact .fin hidle
      | cons chunk rest =>
          have hchunk := hpos chunk List.mem_cons_self
          have htiles := @tiles_pieceSpans _ client.bufferSize_pos
            (chunk.range.end - chunk.range.begin) chunk.range.begin _ le_rfl
          rw [Nat.add_sub_cancel' (show chunk.range.begin ≤ chunk.range.end from
            Nat.le_add_right _ _)] at htiles
          have hframes : client.rangeFrames streamId ((chunk :: rest).map .whole) =
              (client.pieces chunk.range).map (client.dataFrame streamId chunk) ++
                client.afterChunk streamId chunk rest := rfl
          rw [hframes, pieces] at hall
          generalize pieceSpans client.bufferSize.toNat
            (chunk.range.end - chunk.range.begin) chunk.range.begin
            (chunk.range.end - chunk.range.begin) = spans at hall htiles
          have hlt : chunk.range.begin < chunk.range.end := Nat.lt_add_of_pos_right hchunk
          generalize hbegin : chunk.range.begin = first at htiles hlt
          generalize hend : chunk.range.end = last at htiles hlt
          cases htiles with
          | nil => exact absurd hlt (lt_irrefl _)
          | @cons _ n _ pieces hn hle htiles =>
              obtain ⟨rfl, rfl⟩ := List.cons.inj hall
              rw [← hend] at htiles
              exact .data (fun hin => by rw [hidle] at hin; cases hin) (fun _ => hbegin.symm) hn
                hle htiles
  | @within chunk hactive hid hoffset pieces htiles rest =>
      generalize hnext : c.activeChunkNextOffset = next at htiles
      cases htiles with
      | nil =>
          rw [List.map_nil, List.nil_append, afterChunk] at hall
          cases hframe : client.chunkCompleteFrame streamId (.whole chunk) with
          | error e =>
              simp only [hframe] at hall
              cases hall
          | ok complete =>
              simp only [hframe] at hall
              obtain ⟨rfl, rfl⟩ := List.cons.inj hall
              exact .complete hactive hid hoffset hnext hframe
      | @cons _ n _ pieces hn hle htiles =>
          obtain ⟨rfl, rfl⟩ := List.cons.inj hall
          exact .data (fun _ => ⟨hid, hoffset, hnext⟩)
            (fun hidle => by rw [hactive] at hidle; cases hidle) hn hle htiles

end UploadClient

end GridFlux
