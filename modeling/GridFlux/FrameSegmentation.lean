/-
GridFlux/FrameSegmentation.lean

Reading frames does not depend on how the network splits the stream.

Both readers follow one protocol (`frames`): 64 bytes of header, then as many
bytes as it announces, until FIN.  A reader's `verdict` is what the protocol
makes of the bytes it has collected and those still to come; every round of
either loop keeps it.  So what the non-blocking reader has done at any point is
the first part of what the blocking reader does with the whole stream, and all
of it once the stream has been received (`frameReading_agrees`).
-/
import GridFlux.FrameReading

namespace GridFlux

open Framing

namespace FileTransferServer

/-! ### What the handlers keep -/

/-- A header that announces a payload announces some bytes, and no more than the
buffer holds. -/
theorem validateFrameHeader_payload {header : FrameHeader} {maxPayloadSize : UInt32} {u : Unit}
    (h : validateFrameHeader header maxPayloadSize = .ok u)
    (htype : header.type = .sessionInit ∨ header.type = .data ∨ header.type = .chunkComplete) :
    0 < header.payloadSize.toNat ∧ header.payloadSize.toNat ≤ maxPayloadSize.toNat := by
  have hpos : header.payloadSize ≠ 0 → 0 < header.payloadSize.toNat := by
    intro hne
    apply Nat.pos_of_ne_zero
    intro hzero
    exact hne (UInt32.toNat_inj.mp hzero)
  rcases htype with htype | htype | htype
  · simp only [validateFrameHeader, htype, bind_eq_ok, require_eq_ok] at h
    obtain ⟨-, -, -, -, -, -, -, -, -, hle, -, hne, -⟩ := h
    exact ⟨hpos hne, UInt32.le_iff_toNat_le.mp hle⟩
  · simp only [validateFrameHeader, htype, bind_eq_ok, require_eq_ok] at h
    obtain ⟨-, -, -, -, -, -, -, -, -, hle, -, -, -, hne, -⟩ := h
    exact ⟨hpos hne, UInt32.le_iff_toNat_le.mp hle⟩
  · simp only [validateFrameHeader, htype, bind_eq_ok, require_eq_ok] at h
    obtain ⟨-, -, -, -, -, -, -, -, -, hle, -, hne, -⟩ := h
    exact ⟨hpos hne, UInt32.le_iff_toNat_le.mp hle⟩

namespace Serving

variable {setup : ReaderSetup} {s s' : Serving}

/-- What a connection in the middle of a payload knows about it. -/
structure Reads (setup : ReaderSetup) (s : Serving) : Prop where
  ready : s.connection.sessionReady = true → s.transfer.active ≠ none
  reading : s.connection.readState = .payload →
    0 < s.payloadSize ∧ s.payloadSize ≤ setup.options.bufferSize.toNat ∧
      (s.connection.currentHeader.type = .sessionInit ∨ s.connection.sessionReady = true)

theorem streamTaken_ready {c c' : FileServerConnection} {t t' : TransferState} {streamId : Nat}
    (h : StreamTaken c t streamId c' t') :
    c'.sessionReady = c.sessionReady ∧ t'.active = t.active := by
  cases h with
  | first => exact ⟨rfl, rfl⟩
  | again => exact ⟨rfl, rfl⟩

theorem processHeader_ok {encoded : EncodedFrameHeader}
    (h : s.processHeader setup encoded = (.ok (), s')) (hreads : s.Reads setup) :
    s'.Reads setup ∧ s'.connection.readState ≠ .header := by
  rw [processHeader] at h
  dsimp only at h
  rcases hheader : processCompletedHeader setup.options s.connection s.transfer encoded with
    e | ⟨c', t'⟩
  · rw [hheader] at h
    cases h
  · rw [hheader] at h
    cases h
    obtain ⟨header, c₁, t₁, -, hvalid, -, hstream, htaken⟩ := processCompletedHeader_ok hheader
    obtain ⟨hready₁, hactive₁⟩ := streamTaken_ready hstream
    have hopen : c₁.sessionReady = true → t₁.active ≠ none := by
      rw [hready₁, hactive₁]
      exact hreads.ready
    cases htaken with
    | sessionInit htype =>
        obtain ⟨hpos, hle⟩ := validateFrameHeader_payload hvalid (Or.inl htype)
        exact ⟨⟨hopen, fun _ => ⟨hpos, hle, Or.inl htype⟩⟩, ReadState.noConfusion⟩
    | fin htype hready hidle => exact ⟨⟨hopen, fun hr => by cases hr⟩, ReadState.noConfusion⟩
    | chunk htype hready =>
        obtain ⟨hpos, hle⟩ := validateFrameHeader_payload hvalid (Or.inr htype)
        exact ⟨⟨hopen, fun _ => ⟨hpos, hle, Or.inr hready.ready⟩⟩, ReadState.noConfusion⟩

end Serving

/-- **A payload that has been taken in** leaves the connection at the next
header. -/
theorem processCompletedPayload_header {options : FileTransferOptions} {index : Nat}
    {c c' : FileServerConnection} {t t' : TransferState} {bytes : Bytes} {w w' : World}
    (h : processCompletedPayload options index c t bytes w = (.ok (), c', t', w'))
    (hready : c.sessionReady = true → t.active ≠ none)
    (hreading : c.currentHeader.type = .sessionInit ∨ c.sessionReady = true) :
    c'.readState = .header ∧ (c'.sessionReady = true → t'.active ≠ none) := by
  have hstep := processCompletedPayload_step (S := ∅) options index c t bytes w
  rw [h] at hstep
  have hopen := hstep.open'.1
  rw [processCompletedPayload] at h
  split at h
  · rw [processSessionInitPayload] at h
    rcases hdecode : decodeSessionInitPayload bytes with e | init
    · rw [hdecode] at h
      cases h
    · rw [hdecode] at h
      dsimp only at h
      rcases hinit : initializeSession options init t.active w with ⟨e | _, _ | active, w₁⟩
      · rw [hinit] at h
        cases h
      · rw [hinit] at h
        cases h
      · exact absurd rfl (initializeSession_active hinit)
      · rw [hinit] at h
        dsimp only at h
        rcases hresponse : resumeResponse options { c with sessionReady := true } active with
          e | ⟨header, payload⟩
        · rw [hresponse] at h
          cases h
        · rw [hresponse] at h
          dsimp only at h
          rcases hsend : sendFrame w₁ with ⟨e | _, w₂⟩
          · rw [hsend] at h
            cases h
          · rw [hsend] at h
            cases h
            exact ⟨rfl, fun _ => Option.some_ne_none _⟩
  · rename_i htype
    have hactive := hready (hreading.resolve_left htype)
    rcases hsome : t.active with _ | active
    · exact absurd hsome hactive
    · rw [hsome] at h
      dsimp only at h
      have hafter := hopen hactive
      split at h
      · have hends := processChunkCompletePayload_ends c active bytes w
        generalize processChunkCompletePayload c active bytes w = result at h hends
        rcases result with ⟨e | c₁, s, w₁⟩
        · cases h
        · cases h
          cases hends with
          | recorded _ _ _ _ hresult =>
              rcases hresult with ⟨_, _, _, hbad⟩ | ⟨-, hok⟩
              · cases hbad
              · cases hok
                exact ⟨rfl, fun _ => hafter⟩
      · have hends := processDataPayload_ends c active bytes w
        generalize processDataPayload c active bytes w = result at h hends
        rcases result with ⟨e | c₁, w₁⟩
        · cases h
        · cases h
          cases hends with
          | written _ _ _ hresult =>
              rcases hresult with ⟨_, _, _, hbad⟩ | ⟨-, hok⟩
              · cases hbad
              · cases hok
                exact ⟨rfl, fun _ => hafter⟩

namespace Serving

variable {setup : ReaderSetup} {s s' : Serving}

theorem processPayload_ok {bytes : Bytes} {pause : Bool}
    (h : s.processPayload setup bytes = (.ok (), s', pause)) (hreads : s.Reads setup)
    (hpayload : s.connection.readState = .payload) :
    s'.Reads setup ∧ s'.connection.readState = .header := by
  rw [processPayload] at h
  dsimp only at h
  rcases hresult : processCompletedPayload setup.options setup.index s.connection s.transfer bytes
    s.world with ⟨e | _, c', t', w'⟩
  · rw [hresult] at h
    cases h
  · rw [hresult] at h
    obtain ⟨hheader, hready⟩ := processCompletedPayload_header hresult hreads.ready
      (hreads.reading hpayload).2.2
    dsimp only at h
    have hs' := (Prod.mk.inj (Prod.mk.inj h).2).1
    subst hs'
    refine ⟨⟨hready, fun hr => ?_⟩, hheader⟩
    have hr' : c'.readState = .payload := hr
    rw [hheader] at hr'
    cases hr'

/-- The handlers only add to what has been dispatched. -/
theorem processHeader_dispatched (encoded : EncodedFrameHeader) (s : Serving) :
    (s.processHeader setup encoded).2.dispatched = s.dispatched ++ [.header encoded] := by
  rw [processHeader]
  dsimp only
  rcases processCompletedHeader setup.options s.connection s.transfer encoded with e | ⟨c', t'⟩
  · rfl
  · rfl

theorem processPayload_dispatched (bytes : Bytes) (s : Serving) :
    (s.processPayload setup bytes).2.1.dispatched =
      s.dispatched ++ [.payload s.connection.currentHeader bytes] := by
  rw [processPayload]
  dsimp only
  rcases processCompletedPayload setup.options setup.index s.connection s.transfer bytes s.world
    with ⟨e | _, c', t', w'⟩
  · rfl
  · rfl

end Serving

/-! ### The protocol -/

/-- Headers and payloads as both readers take them, apart from the arrays. -/
def frames (setup : ReaderSetup) : Protocol UInt8 Serving TransferError where
  want s :=
    match s.connection.readState with
    | .header => kHeaderBytes
    | .payload => s.payloadSize
    | .done => 0
  take s bytes :=
    match s.connection.readState with
    | .header =>
        if h : bytes.length = kFrameHeaderSize.toNat then s.processHeader setup ⟨bytes, h⟩
        else (.ok (), s)
    | .payload => ((s.processPayload setup bytes).1, (s.processPayload setup bytes).2.1)
    | .done => (.ok (), s)

section Frames

variable (setup : ReaderSetup) {s : Serving}

theorem frames_want_header (h : s.connection.readState = .header) :
    (frames setup).want s = kHeaderBytes := by
  simp only [frames, h]

theorem frames_want_payload (h : s.connection.readState = .payload) :
    (frames setup).want s = s.payloadSize := by
  simp only [frames, h]

theorem frames_want_done (h : s.connection.readState = .done) : (frames setup).want s = 0 := by
  simp only [frames, h]

theorem frames_take_header (h : s.connection.readState = .header) (encoded : EncodedFrameHeader) :
    (frames setup).take s encoded.bytes = s.processHeader setup encoded := by
  rw [frames]
  dsimp only
  rw [h]
  exact dif_pos encoded.size

theorem frames_take_payload (h : s.connection.readState = .payload) (bytes : Bytes) :
    (frames setup).take s bytes =
      ((s.processPayload setup bytes).1, (s.processPayload setup bytes).2.1) := by
  rw [frames]
  dsimp only
  rw [h]

/-- What has been dispatched stays the first part of what is dispatched. -/
theorem frames_dispatched (s : Serving) (stream : Bytes) :
    s.dispatched <+: ((frames setup).read s stream).2.dispatched := by
  apply Protocol.read_keeps (R := fun a b : Serving => a.dispatched <+: b.dispatched)
  · exact fun s => List.prefix_rfl
  · exact fun hab hbc => hab.trans hbc
  · intro s bytes
    rw [frames]
    dsimp only
    cases h : s.connection.readState with
    | header =>
        dsimp only
        split
        · rw [Serving.processHeader_dispatched]
          exact List.prefix_append _ _
        · exact List.prefix_rfl
    | payload =>
        show _ <+: (s.processPayload setup bytes).2.1.dispatched
        rw [Serving.processPayload_dispatched]
        exact List.prefix_append _ _
    | done => exact List.prefix_rfl

end Frames

/-! ### The readers -/

/-- A `recv` asks for something, and for no more than fits. -/
def Receive.Inside (setup : ReaderSetup) (i : Receive) : Prop :=
  (i.capacity = kHeaderBytes ∨ i.capacity = setup.options.bufferSize.toNat) ∧
    0 < i.length ∧ i.index + i.length ≤ i.capacity

namespace FrameReader

/-- The bytes of the frame the reader is in the middle of. -/
def collected (r : FrameReader) : Bytes :=
  match r.serving.connection.readState with
  | .header => r.encodedHeader.bytes.take r.headerBytesRead
  | .payload => r.payloadBuffer.take r.payloadBytesRead
  | .done => []

/-- What the protocol makes of what has been collected and what is to come. -/
def verdict (setup : ReaderSetup) (r : FrameReader) : Verdict TransferError × Serving :=
  (frames setup).read r.serving (r.collected ++ r.socket)

/-- The fill indices and the receives stay inside the arrays. -/
structure Bounded (setup : ReaderSetup) (r : FrameReader) : Prop where
  buffer : r.payloadBuffer.length = setup.options.bufferSize.toNat
  header : r.headerBytesRead ≤ kHeaderBytes
  payload : r.payloadBytesRead ≤ setup.options.bufferSize.toNat
  issued : ∀ i ∈ r.issued, i.Inside setup

/-- What holds between two rounds. -/
structure Ok (setup : ReaderSetup) (r : FrameReader) : Prop extends r.Bounded setup where
  reads : r.serving.Reads setup
  headerOpen : r.headerBytesRead < kHeaderBytes
  headerIdle : r.serving.connection.readState ≠ .header → r.headerBytesRead = 0
  payloadOpen : r.serving.connection.readState = .payload →
    r.payloadBytesRead < r.serving.payloadSize

variable {setup : ReaderSetup} {r r' : FrameReader}

theorem collected_header (h : r.serving.connection.readState = .header) :
    r.collected = r.encodedHeader.bytes.take r.headerBytesRead := by
  rw [collected, h]

theorem collected_payload (h : r.serving.connection.readState = .payload) :
    r.collected = r.payloadBuffer.take r.payloadBytesRead := by
  rw [collected, h]

theorem Ok.length_collected_header (h : r.Ok setup)
    (hstate : r.serving.connection.readState = .header) :
    r.collected.length = r.headerBytesRead := by
  rw [collected_header hstate, List.length_take, r.encodedHeader.size]
  exact Nat.min_eq_left h.header

theorem Ok.length_collected_payload (h : r.Ok setup)
    (hstate : r.serving.connection.readState = .payload) :
    r.collected.length = r.payloadBytesRead := by
  rw [collected_payload hstate, List.length_take, h.buffer]
  exact Nat.min_eq_left h.payload

theorem accepted_ok (setup : ReaderSetup) (transfer : TransferState) (window : UInt64)
    (world : World) (stream : Bytes) : (accepted setup transfer window world stream).Ok setup where
  buffer := List.length_replicate
  header := Nat.zero_le _
  payload := Nat.zero_le _
  issued i hi := by cases hi
  reads := ⟨fun h => (Bool.false_ne_true h).elim, fun h => by cases h⟩
  headerOpen := by
    show 0 < kHeaderBytes
    decide
  headerIdle h := absurd rfl h
  payloadOpen h := by cases h

theorem Ok.noteReceive (h : r.Ok setup) {capacity index length : Nat}
    (hinside : Receive.Inside setup ⟨capacity, index, length⟩) :
    (r.noteReceive capacity index length).Ok setup where
  buffer := h.buffer
  header := h.header
  payload := h.payload
  issued i hi := by
    rcases List.mem_append.mp hi with hi | hi
    · exact h.issued i hi
    · rw [List.mem_singleton.mp hi]
      exact hinside
  reads := h.reads
  headerOpen := h.headerOpen
  headerIdle := h.headerIdle
  payloadOpen := h.payloadOpen

/-- The pause changes nothing. -/
theorem Ok.resumed (h : r.Ok setup) : ({ r with budgetPauseRequested := false } : FrameReader).Ok setup :=
  ⟨⟨h.buffer, h.header, h.payload, h.issued⟩, h.reads, h.headerOpen, h.headerIdle, h.payloadOpen⟩

/-! ### Receiving -/

section Received

variable {data rest : Bytes} (hsocket : r.socket = data ++ rest)
include hsocket

theorem receivedHeader_socket : (r.receivedHeader data).socket = rest := by
  rw [receivedHeader, hsocket, List.drop_left]

theorem receivedPayload_socket : (r.receivedPayload data).socket = rest := by
  rw [receivedPayload, hsocket, List.drop_left]

omit hsocket in
theorem receivedHeader_filled (hle : r.headerBytesRead + data.length ≤ kHeaderBytes) :
    (r.receivedHeader data).encodedHeader.bytes.take (r.headerBytesRead + data.length) =
      r.encodedHeader.bytes.take r.headerBytesRead ++ data :=
  take_store (by rw [r.encodedHeader.size]; exact hle)

omit hsocket in
theorem receivedPayload_filled (hle : r.payloadBytesRead + data.length ≤ r.payloadBuffer.length) :
    (r.receivedPayload data).payloadBuffer.take (r.payloadBytesRead + data.length) =
      r.payloadBuffer.take r.payloadBytesRead ++ data :=
  take_store hle

/-- A part of a header has been received. -/
theorem Ok.receivedHeader (h : r.Ok setup) (hstate : r.serving.connection.readState = .header)
    (hlt : r.headerBytesRead + data.length < kHeaderBytes) :
    (r.receivedHeader data).Ok setup ∧ (r.receivedHeader data).verdict setup = r.verdict setup := by
  refine ⟨⟨⟨h.buffer, Nat.le_of_lt hlt, h.payload, h.issued⟩, h.reads, hlt,
    fun hne => absurd hstate hne, h.payloadOpen⟩, ?_⟩
  have hcollected : (r.receivedHeader data).collected = r.collected ++ data := by
    rw [collected_header hstate, collected_header (r := r.receivedHeader data) hstate]
    exact receivedHeader_filled (Nat.le_of_lt hlt)
  rw [verdict, verdict, hcollected, receivedHeader_socket hsocket, hsocket, List.append_assoc]
  rfl

/-- A part of a payload has been received. -/
theorem Ok.receivedPayload (h : r.Ok setup) (hstate : r.serving.connection.readState = .payload)
    (hlt : r.payloadBytesRead + data.length < r.serving.payloadSize) :
    (r.receivedPayload data).Ok setup ∧
      (r.receivedPayload data).verdict setup = r.verdict setup := by
  have hsize := (h.reads.reading hstate).2.1
  have hbuffer : (r.receivedPayload data).payloadBuffer.length = setup.options.bufferSize.toNat :=
    (length_store _ _ _).trans h.buffer
  refine ⟨⟨⟨hbuffer, h.header, ?_, h.issued⟩, h.reads, h.headerOpen, h.headerIdle,
    fun _ => hlt⟩, ?_⟩
  · show r.payloadBytesRead + data.length ≤ _
    omega
  · have hcollected : (r.receivedPayload data).collected = r.collected ++ data := by
      rw [collected_payload hstate, collected_payload (r := r.receivedPayload data) hstate]
      exact receivedPayload_filled (by rw [h.buffer]; omega)
    rw [verdict, verdict, hcollected, receivedPayload_socket hsocket, hsocket, List.append_assoc]
    rfl

end Received

/-- How a full header or payload leaves the reader: refused as the protocol
refuses it, or in order, with the rest of the stream to come. -/
inductive Completes (setup : ReaderSetup) (r : FrameReader) (rest : Bytes) :
    Except TransferError Unit → FrameReader → Prop
  | refused {e : TransferError} {q : FrameReader}
      (hverdict : r.verdict setup = (.refused e, q.serving)) (hbounded : q.Bounded setup) :
      Completes setup r rest (.error e) q
  | taken {q : FrameReader} (hok : q.Ok setup) (hverdict : q.verdict setup = r.verdict setup)
      (hrest : q.socket = rest) : Completes setup r rest (.ok ()) q

section Complete

variable {data rest : Bytes} (hsocket : r.socket = data ++ rest) {result : Except TransferError Unit}
  {q : FrameReader}
include hsocket

theorem Ok.completeHeader (h : r.Ok setup) (hstate : r.serving.connection.readState = .header)
    (hfull : r.headerBytesRead + data.length = kHeaderBytes)
    (hcall : (r.receivedHeader data).completeHeader setup = (result, q)) :
    Completes setup r rest result q := by
  have hframe : r.collected ++ data = (r.receivedHeader data).encodedHeader.bytes := by
    rw [collected_header hstate, ← receivedHeader_filled (Nat.le_of_eq hfull), hfull]
    exact List.take_of_length_le (Nat.le_of_eq (r.receivedHeader data).encodedHeader.size)
  have hverdict : r.verdict setup = (frames setup).read r.serving
      ((r.receivedHeader data).encodedHeader.bytes ++ rest) := by
    rw [verdict, hsocket, ← List.append_assoc, hframe]
  have hwant := frames_want_header setup hstate
  have hlength : (r.receivedHeader data).encodedHeader.bytes.length = (frames setup).want r.serving := by
    rw [hwant]
    exact (r.receivedHeader data).encodedHeader.size
  have hpos : 0 < (frames setup).want r.serving := by
    rw [hwant]
    decide
  have htake := frames_take_header setup hstate (r.receivedHeader data).encodedHeader
  rw [FrameReader.completeHeader] at hcall
  rcases hprocess : r.serving.processHeader setup (r.receivedHeader data).encodedHeader with
    ⟨e | _, s⟩
  · have hcall' := hcall
    rw [show (r.receivedHeader data).serving = r.serving from rfl, hprocess] at hcall'
    cases hcall'
    refine .refused ?_ ⟨h.buffer, Nat.le_of_eq hfull, h.payload, h.issued⟩
    rw [hverdict]
    exact Protocol.read_refused hlength hpos (htake.trans hprocess)
  · have hcall' := hcall
    rw [show (r.receivedHeader data).serving = r.serving from rfl, hprocess] at hcall'
    cases hcall'
    obtain ⟨hreads, hleft⟩ := Serving.processHeader_ok hprocess h.reads
    refine .taken ⟨⟨h.buffer, Nat.zero_le _, ?_, h.issued⟩, hreads, ?_, fun _ => rfl, ?_⟩ ?_
      (receivedHeader_socket hsocket)
    · show (if _ then 0 else r.payloadBytesRead) ≤ _
      split
      · exact Nat.zero_le _
      · exact h.payload
    · show 0 < kHeaderBytes
      decide
    · intro hpayload
      show (if _ then 0 else r.payloadBytesRead) < s.payloadSize
      rw [if_pos hpayload]
      exact (hreads.reading hpayload).1
    · rw [hverdict, Protocol.read_frame hlength hpos (htake.trans hprocess), verdict]
      -- nothing of the next frame has been collected
      have hnone : ∀ q : FrameReader, q.serving = s →
          (s.connection.readState = .payload → q.payloadBytesRead = 0) → q.collected = [] := by
        rintro q rfl hzero
        rw [collected]
        cases hnext : q.serving.connection.readState with
        | header => exact absurd hnext hleft
        | payload =>
            dsimp only
            rw [hzero hnext, List.take_zero]
        | done => rfl
      rw [hnone _ rfl fun hpayload => if_pos hpayload]
      show (frames setup).read s ([] ++ (r.receivedHeader data).socket) = _
      rw [receivedHeader_socket hsocket, List.nil_append]

theorem Ok.completePayload (h : r.Ok setup) (hstate : r.serving.connection.readState = .payload)
    (hfull : r.payloadBytesRead + data.length = r.serving.payloadSize)
    (hcall : (r.receivedPayload data).completePayload setup = (result, q)) :
    Completes setup r rest result q := by
  obtain ⟨hpos, hsize, -⟩ := h.reads.reading hstate
  have hfits : r.payloadBytesRead + data.length ≤ r.payloadBuffer.length := by
    rw [h.buffer]
    omega
  have hframe : r.collected ++ data =
      (r.receivedPayload data).payloadBuffer.take r.serving.payloadSize := by
    rw [collected_payload hstate, ← receivedPayload_filled hfits, hfull]
  have hverdict : r.verdict setup = (frames setup).read r.serving
      ((r.receivedPayload data).payloadBuffer.take r.serving.payloadSize ++ rest) := by
    rw [verdict, hsocket, ← List.append_assoc, hframe]
  have hwant := frames_want_payload setup hstate
  have hbuffer : (r.receivedPayload data).payloadBuffer.length = setup.options.bufferSize.toNat :=
    (length_store _ _ _).trans h.buffer
  have hlength : ((r.receivedPayload data).payloadBuffer.take r.serving.payloadSize).length =
      (frames setup).want r.serving := by
    rw [hwant, List.length_take, hbuffer]
    omega
  have htake := frames_take_payload setup hstate
    ((r.receivedPayload data).payloadBuffer.take r.serving.payloadSize)
  rw [← hwant] at hpos
  rw [FrameReader.completePayload] at hcall
  rcases hprocess : r.serving.processPayload setup
      ((r.receivedPayload data).payloadBuffer.take r.serving.payloadSize) with ⟨e | _, s, pause⟩
  · rw [hprocess] at htake
    rw [show (r.receivedPayload data).serving = r.serving from rfl, hprocess] at hcall
    cases hcall
    refine .refused ?_ ⟨hbuffer, h.header, ?_, h.issued⟩
    · rw [hverdict]
      exact Protocol.read_refused hlength hpos htake
    · show r.payloadBytesRead + data.length ≤ _
      omega
  · rw [hprocess] at htake
    rw [show (r.receivedPayload data).serving = r.serving from rfl, hprocess] at hcall
    cases hcall
    obtain ⟨hreads, hheader⟩ := Serving.processPayload_ok hprocess h.reads hstate
    have hidle : r.headerBytesRead = 0 :=
      h.headerIdle (by rw [hstate]; exact ReadState.noConfusion)
    refine .taken ⟨⟨hbuffer, h.header, Nat.zero_le _, h.issued⟩, hreads, h.headerOpen,
      fun _ => hidle, fun hpayload => ?_⟩ ?_ (receivedPayload_socket hsocket)
    · rw [show s.connection.readState = .payload from hpayload] at hheader
      cases hheader
    · rw [hverdict, Protocol.read_frame hlength hpos htake, verdict,
        collected_header (show s.connection.readState = .header from hheader)]
      show (frames setup).read s
        ((r.receivedPayload data).encodedHeader.bytes.take r.headerBytesRead ++
          (r.receivedPayload data).socket) = _
      rw [hidle, List.take_zero, receivedPayload_socket hsocket, List.nil_append]

end Complete

/-! ### The non-blocking reader -/

theorem recv_bytes {event : RecvEvent} {length : Nat} {data : Bytes}
    (h : r.recv setup event length = .bytes data) :
    ∃ rest, r.socket = data ++ rest ∧ 0 < data.length ∧ data.length ≤ length := by
  rw [recv.eq_def] at h
  cases event with
  | wouldBlock => cases h
  | interrupted => cases h
  | arrived n =>
      dsimp only at h
      split at h
      · cases h
      · split at h
        · split at h
          · cases h
          · cases h
        · rename_i hlength hsocket
          cases h
          have hpos : 0 < r.socket.length := List.length_pos_iff.mpr hsocket
          refine ⟨r.socket.drop (min (max 1 n) length), (List.take_append_drop _ _).symm, ?_, ?_⟩
          · rw [List.length_take]
            omega
          · rw [List.length_take]
            omega

/-- Where something is asked for, zero is the end of the stream. -/
theorem recv_zero {event : RecvEvent} {length : Nat} (hpos : 0 < length)
    (h : r.recv setup event length = .zero) : r.socket = [] ∧ setup.peerCloses = true := by
  rw [recv.eq_def] at h
  cases event with
  | wouldBlock => cases h
  | interrupted => cases h
  | arrived n =>
      dsimp only at h
      rw [if_neg (by omega)] at h
      split at h
      · rename_i hsocket
        split at h
        · rename_i hcloses
          exact ⟨hsocket, hcloses⟩
        · cases h
      · cases h

/-- The reader has received no less, and something where it could. -/
structure Progress (event : RecvEvent) (r q : FrameReader) : Prop where
  le : q.socket.length ≤ r.socket.length
  lt : ∀ n, event = .arrived n → r.serving.connection.readState ≠ .done → r.socket ≠ [] →
    q.socket.length < r.socket.length

/-- How a call of `readFromConnection` ends, against the protocol. -/
inductive Ended (setup : ReaderSetup) (r : FrameReader) : ReadResult → FrameReader → Prop
  | returned {q : FrameReader} (hok : q.Ok setup) (hverdict : q.verdict setup = r.verdict setup) :
      Ended setup r .returned q
  | refused {e : TransferError} {q : FrameReader}
      (hverdict : r.verdict setup = (.refused e, q.serving)) (hbounded : q.Bounded setup) :
      Ended setup r (.refused e) q
  | closed {e : TransferError} {q : FrameReader} (hcloses : setup.peerCloses = true)
      (hverdict : r.verdict setup = (.short, q.serving)) (hbounded : q.Bounded setup) :
      Ended setup r (.closed e) q

/-- What one round does. -/
inductive Follows (setup : ReaderSetup) (event : RecvEvent) (r : FrameReader) : Turn → Prop
  | again {q : FrameReader} (hok : q.Ok setup) (hverdict : q.verdict setup = r.verdict setup)
      (hprogress : Progress event r q) : Follows setup event r (.again q)
  | ends {result : ReadResult} {q : FrameReader} (hended : Ended setup r result q)
      (hprogress : result = .returned → Progress event r q) : Follows setup event r (.ends result q)

/-- With the stream at its end in the middle of a frame, there is no more to
read. -/
theorem verdict_short (hsocket : r.socket = [])
    (hlt : r.collected.length < (frames setup).want r.serving) :
    r.verdict setup = (.short, r.serving) := by
  rw [verdict, hsocket, List.append_nil]
  exact Protocol.read_short hlt

/-- A `recv` that takes nothing from the socket. -/
theorem Progress.stay {event : RecvEvent} {q : FrameReader} (hsocket : q.socket = r.socket)
    (hevent : ∀ n, event = .arrived n → r.socket = []) : Progress event r q where
  le := Nat.le_of_eq (congrArg List.length hsocket)
  lt n hn _ hne := absurd (hevent n hn) hne

theorem recv_stays {event : RecvEvent} {length : Nat} (hpos : 0 < length)
    (h : r.recv setup event length = .wouldBlock ∨ r.recv setup event length = .interrupted)
    (n : Nat) (hevent : event = .arrived n) : r.socket = [] := by
  subst hevent
  rw [recv.eq_def] at h
  dsimp only at h
  rw [if_neg (by omega)] at h
  by_contra hne
  rw [if_neg hne] at h
  rcases h with h | h
  · cases h
  · cases h

theorem Progress.received {event : RecvEvent} {q : FrameReader} {data rest : Bytes}
    (hsocket : r.socket = data ++ rest) (hpos : 0 < data.length) (hrest : q.socket = rest) :
    Progress event r q := by
  have hlength : r.socket.length = data.length + q.socket.length := by
    rw [hsocket, List.length_append, hrest]
  exact ⟨by omega, fun _ _ _ _ => by omega⟩

theorem headerTurn_follows (h : r.Ok setup) (hstate : r.serving.connection.readState = .header)
    (event : RecvEvent) : Follows setup event r (r.headerTurn setup event) := by
  have hopen := h.headerOpen
  have hremaining : 0 < r.headerRemaining := by
    rw [headerRemaining]
    omega
  have hinside : Receive.Inside setup
      ⟨r.encodedHeader.bytes.length, r.headerBytesRead, r.headerRemaining⟩ := by
    refine ⟨Or.inl r.encodedHeader.size, hremaining, ?_⟩
    show r.headerBytesRead + (kHeaderBytes - r.headerBytesRead) ≤ r.encodedHeader.bytes.length
    rw [r.encodedHeader.size]
    show _ ≤ kHeaderBytes
    omega
  have hnoted := h.noteReceive hinside
  rw [headerTurn]
  dsimp only
  generalize hnote : r.noteReceive r.encodedHeader.bytes.length r.headerBytesRead
    r.headerRemaining = noted at hnoted ⊢
  have hsame : noted.verdict setup = r.verdict setup := by
    rw [← hnote]
    rfl
  have hserving : noted.serving = r.serving := by rw [← hnote]; rfl
  have hfill : noted.headerBytesRead = r.headerBytesRead := by rw [← hnote]; rfl
  have hkeep : noted.socket = r.socket := by rw [← hnote]; rfl
  have hstate' : noted.serving.connection.readState = .header := by rw [hserving, hstate]
  rcases hrecv : r.recv setup event r.headerRemaining with data | _ | _ | _
  · obtain ⟨rest, hsocket, hpos, hle⟩ := recv_bytes hrecv
    have hsocket' : noted.socket = data ++ rest := hkeep.trans hsocket
    have hle' : data.length ≤ kHeaderBytes - r.headerBytesRead := hle
    dsimp only
    by_cases hfull : noted.headerBytesRead + data.length = kHeaderBytes
    · rw [if_pos (show (noted.receivedHeader data).headerBytesRead = kHeaderBytes from hfull)]
      rcases hcall : (noted.receivedHeader data).completeHeader setup with ⟨e | _, q⟩
      · cases hnoted.completeHeader hsocket' hstate' hfull hcall with
        | refused hverdict hbounded =>
            exact .ends (.refused (hsame.symm.trans hverdict) hbounded) (fun heq => by cases heq)
      · cases hnoted.completeHeader hsocket' hstate' hfull hcall with
        | taken hok hverdict hrest =>
            exact .again hok (hverdict.trans hsame) (.received hsocket hpos hrest)
    · rw [if_neg (show ¬(noted.receivedHeader data).headerBytesRead = kHeaderBytes from hfull)]
      obtain ⟨hok, hverdict⟩ := hnoted.receivedHeader hsocket' hstate' (by omega)
      exact .again hok (hverdict.trans hsame)
        (.received hsocket hpos (receivedHeader_socket hsocket'))
  · obtain ⟨hempty, hcloses⟩ := recv_zero hremaining hrecv
    have hshort : r.verdict setup = (.short, noted.serving) := by
      rw [hserving]
      apply verdict_short hempty
      rw [h.length_collected_header hstate, frames_want_header setup hstate]
      exact hopen
    exact .ends (.closed hcloses hshort hnoted.toBounded) (fun heq => by cases heq)
  · exact .ends (.returned hnoted hsame)
      (fun _ => .stay hkeep (recv_stays hremaining (Or.inl hrecv)))
  · exact .again hnoted hsame (.stay hkeep (recv_stays hremaining (Or.inr hrecv)))

theorem payloadTurn_follows (h : r.Ok setup) (hstate : r.serving.connection.readState = .payload)
    (event : RecvEvent) : Follows setup event r (r.payloadTurn setup event) := by
  have hopen := h.payloadOpen hstate
  have hsize := (h.reads.reading hstate).2.1
  have hremaining : 0 < r.payloadRemaining := by
    rw [payloadRemaining]
    omega
  have hinside : Receive.Inside setup
      ⟨r.payloadBuffer.length, r.payloadBytesRead, r.payloadRemaining⟩ := by
    refine ⟨Or.inr h.buffer, hremaining, ?_⟩
    show r.payloadBytesRead + (r.serving.payloadSize - r.payloadBytesRead) ≤ r.payloadBuffer.length
    rw [h.buffer]
    omega
  have hnoted := h.noteReceive hinside
  rw [payloadTurn]
  dsimp only
  generalize hnote : r.noteReceive r.payloadBuffer.length r.payloadBytesRead
    r.payloadRemaining = noted at hnoted ⊢
  have hsame : noted.verdict setup = r.verdict setup := by
    rw [← hnote]
    rfl
  have hserving : noted.serving = r.serving := by rw [← hnote]; rfl
  have hfill : noted.payloadBytesRead = r.payloadBytesRead := by rw [← hnote]; rfl
  have hkeep : noted.socket = r.socket := by rw [← hnote]; rfl
  have hstate' : noted.serving.connection.readState = .payload := by rw [hserving, hstate]
  rcases hrecv : r.recv setup event r.payloadRemaining with data | _ | _ | _
  · obtain ⟨rest, hsocket, hpos, hle⟩ := recv_bytes hrecv
    have hsocket' : noted.socket = data ++ rest := hkeep.trans hsocket
    have hle' : data.length ≤ r.serving.payloadSize - r.payloadBytesRead := hle
    dsimp only
    by_cases hfull : noted.payloadBytesRead + data.length = noted.serving.payloadSize
    · rw [if_pos (show (noted.receivedPayload data).payloadBytesRead =
        (noted.receivedPayload data).serving.payloadSize from hfull)]
      rcases hcall : (noted.receivedPayload data).completePayload setup with ⟨e | _, q⟩
      · cases hnoted.completePayload hsocket' hstate' hfull hcall with
        | refused hverdict hbounded =>
            exact .ends (.refused (hsame.symm.trans hverdict) hbounded) (fun heq => by cases heq)
      · cases hnoted.completePayload hsocket' hstate' hfull hcall with
        | taken hok hverdict hrest =>
            dsimp only
            split
            · -- the pause ends the call
              exact .ends (.returned hok.resumed (hverdict.trans hsame))
                (fun _ => .received hsocket hpos hrest)
            · exact .again hok (hverdict.trans hsame) (.received hsocket hpos hrest)
    · rw [if_neg (show ¬(noted.receivedPayload data).payloadBytesRead =
        (noted.receivedPayload data).serving.payloadSize from hfull)]
      obtain ⟨hok, hverdict⟩ := hnoted.receivedPayload hsocket' hstate' (by rw [hserving] at hfull ⊢; omega)
      exact .again hok (hverdict.trans hsame)
        (.received hsocket hpos (receivedPayload_socket hsocket'))
  · obtain ⟨hempty, hcloses⟩ := recv_zero hremaining hrecv
    have hshort : r.verdict setup = (.short, noted.serving) := by
      rw [hserving]
      apply verdict_short hempty
      rw [h.length_collected_payload hstate, frames_want_payload setup hstate]
      exact hopen
    exact .ends (.closed hcloses hshort hnoted.toBounded) (fun heq => by cases heq)
  · exact .ends (.returned hnoted hsame)
      (fun _ => .stay hkeep (recv_stays hremaining (Or.inl hrecv)))
  · exact .again hnoted hsame (.stay hkeep (recv_stays hremaining (Or.inr hrecv)))

/-- **One round** keeps the reader in order, and what the protocol makes of the
stream. -/
theorem turn_follows (h : r.Ok setup) (event : RecvEvent) :
    Follows setup event r (r.turn setup event) := by
  rw [turn]
  cases hstate : r.serving.connection.readState with
  | header => exact headerTurn_follows h hstate event
  | payload => exact payloadTurn_follows h hstate event
  | done =>
      refine .ends (.returned h rfl) (fun _ => ⟨Nat.le_refl _, fun _ _ hopen _ => ?_⟩)
      exact absurd hstate hopen

theorem Ended.trans {q : FrameReader} {result : ReadResult} (hverdict : q.verdict setup = r.verdict setup)
    (h : Ended setup q result r') : Ended setup r result r' := by
  cases h with
  | returned hok hsame => exact .returned hok (hsame.trans hverdict)
  | refused hrefused hbounded => exact .refused (hverdict.symm.trans hrefused) hbounded
  | closed hcloses hshort hbounded => exact .closed hcloses (hverdict.symm.trans hshort) hbounded

/-- A whole call; it does not lose what its first receive can get. -/
theorem readFromConnection_ended (h : r.Ok setup) (events : List RecvEvent) :
    Ended setup r (r.readFromConnection setup events).1 (r.readFromConnection setup events).2 ∧
      ((r.readFromConnection setup events).1 = .returned →
        (r.readFromConnection setup events).2.socket.length ≤ r.socket.length ∧
          ∀ n rest, events = .arrived n :: rest → r.serving.connection.readState ≠ .done →
            r.socket ≠ [] →
            (r.readFromConnection setup events).2.socket.length < r.socket.length) := by
  induction events generalizing r with
  | nil => exact ⟨.returned h rfl, fun _ => ⟨Nat.le_refl _, fun _ _ heq => by cases heq⟩⟩
  | cons event events ih =>
      rw [readFromConnection]
      have hfollows := turn_follows h event
      rcases hturn : r.turn setup event with q | ⟨result, q⟩
      · rw [hturn] at hfollows
        cases hfollows with
        | again hok hverdict hprogress =>
            obtain ⟨hended, hless⟩ := ih hok
            refine ⟨hended.trans hverdict, fun hreturned => ?_⟩
            obtain ⟨hle, -⟩ := hless hreturned
            refine ⟨hle.trans hprogress.le, fun n rest heq hopen hne => ?_⟩
            cases heq
            exact Nat.lt_of_le_of_lt hle (hprogress.lt n rfl hopen hne)
      · rw [hturn] at hfollows
        cases hfollows with
        | ends hended hprogress =>
            refine ⟨hended, fun hreturned => ?_⟩
            have hless := hprogress hreturned
            refine ⟨hless.le, fun n rest heq hopen hne => ?_⟩
            cases heq
            exact hless.lt n rfl hopen hne

/-- Does the network have something for the call? -/
def arrives : List RecvEvent → Bool
  | .arrived _ :: _ => true
  | _ => false

theorem exists_of_arrives {events : List RecvEvent} (h : arrives events = true) :
    ∃ n rest, events = .arrived n :: rest := by
  rcases events with _ | ⟨event, events⟩
  · cases h
  · cases event with
    | arrived n => exact ⟨n, events, rfl⟩
    | wouldBlock => cases h
    | interrupted => cases h

/-- After FIN a call does nothing. -/
theorem readCalls_done (hdone : r.serving.connection.readState = .done)
    (calls : List (List RecvEvent)) : r.readCalls setup calls = (.returned, r) := by
  induction calls with
  | nil => rfl
  | cons events calls ih =>
      have hcall : r.readFromConnection setup events = (.returned, r) := by
        cases events with
        | nil => rfl
        | cons event events => rw [readFromConnection, turn, hdone]
      rw [readCalls, hcall]
      exact ih

/-- **Repeated calls**; as many of them as there are bytes to come, with
something to receive each, leave nothing to receive. -/
theorem readCalls_ended (h : r.Ok setup) (calls : List (List RecvEvent)) :
    Ended setup r (r.readCalls setup calls).1 (r.readCalls setup calls).2 ∧
      ((r.readCalls setup calls).1 = .returned → r.socket.length ≤ calls.countP arrives →
        (r.readCalls setup calls).2.serving.connection.readState = .done ∨
          (r.readCalls setup calls).2.socket = []) := by
  induction calls generalizing r with
  | nil =>
      refine ⟨.returned h rfl, fun _ hle => Or.inr ?_⟩
      exact List.length_eq_zero_iff.mp (Nat.le_zero.mp hle)
  | cons events calls ih =>
      by_cases hdone : r.serving.connection.readState = .done
      · rw [readCalls_done hdone]
        exact ⟨.returned h rfl, fun _ _ => Or.inl hdone⟩
      rw [readCalls]
      obtain ⟨hended, hless⟩ := readFromConnection_ended h events
      rcases hcall : r.readFromConnection setup events with ⟨result, q⟩
      rw [hcall] at hended hless
      cases hended with
      | returned hok hverdict =>
          obtain ⟨hrest, henough⟩ := ih hok
          refine ⟨hrest.trans hverdict, fun hreturned hle => henough hreturned ?_⟩
          obtain ⟨hkept, hlt⟩ := hless rfl
          rw [List.countP_cons] at hle
          split at hle
          · rename_i harrives
            obtain ⟨n, rest, heq⟩ := exists_of_arrives harrives
            by_cases hempty : r.socket = []
            · rw [hempty] at hkept
              exact hkept.trans (Nat.zero_le _)
            · have := hlt n rest heq hdone hempty
              omega
          · exact hkept.trans hle
      | refused hverdict hbounded =>
          exact ⟨.refused hverdict hbounded, fun heq => by cases heq⟩
      | closed hcloses hverdict hbounded =>
          exact ⟨.closed hcloses hverdict hbounded, fun heq => by cases heq⟩

/-! ### The blocking reader -/

/-- How the calls of `readFromTlsConnection` end, against the protocol. -/
inductive TlsEnded (setup : ReaderSetup) (r : FrameReader) : ReadResult → FrameReader → Prop
  | done {q : FrameReader} (hdone : q.serving.connection.readState = .done)
      (hverdict : r.verdict setup = (.accepted, q.serving)) : TlsEnded setup r .returned q
  | refused {e : TransferError} {q : FrameReader}
      (hverdict : r.verdict setup = (.refused e, q.serving)) : TlsEnded setup r (.refused e) q
  | closed {q : FrameReader} (hcloses : setup.peerCloses = true)
      (hverdict : r.verdict setup = (.short, q.serving)) :
      TlsEnded setup r (.closed ⟨some .internalError, setup.closedStatus⟩) q
  | blocked {q : FrameReader} (hopen : setup.peerCloses = false)
      (hverdict : r.verdict setup = (.short, q.serving)) : TlsEnded setup r .blocked q

/-- The reader goes on, with less to receive. -/
structure GoesOn (setup : ReaderSetup) (r q : FrameReader) : Prop where
  ok : q.Ok setup
  verdict : q.verdict setup = r.verdict setup
  less : q.socket.length < r.socket.length

inductive TlsFollows (setup : ReaderSetup) (r : FrameReader) : Turn → Prop
  | again {q : FrameReader} (h : GoesOn setup r q) : TlsFollows setup r (.again q)
  | paused {q : FrameReader} (h : GoesOn setup r q) : TlsFollows setup r (.ends .returned q)
  | ends {result : ReadResult} {q : FrameReader} (h : TlsEnded setup r result q) :
      TlsFollows setup r (.ends result q)

theorem readAll_ok {length : Nat} {data : Bytes} (h : r.readAll setup length = .ok data) :
    data.length = length ∧ r.socket = data ++ r.socket.drop length := by
  rw [readAll] at h
  split at h
  · rename_i hle
    cases h
    exact ⟨by rw [List.length_take]; omega, (List.take_append_drop _ _).symm⟩
  · split at h
    · cases h
    · cases h

/-- Without the bytes the protocol has a short stream. -/
theorem readAll_error {length : Nat} {result : ReadResult}
    (h : r.readAll setup length = .error result)
    (hwant : r.collected.length + length = (frames setup).want r.serving) :
    TlsEnded setup r result r := by
  rw [readAll] at h
  split at h
  · cases h
  · rename_i hlack
    have hshort : r.verdict setup = (.short, r.serving) := by
      rw [FrameReader.verdict]
      apply Protocol.read_short
      rw [List.length_append]
      omega
    split at h
    · rename_i hcloses
      cases h
      exact .closed hcloses hshort
    · rename_i hopen
      cases h
      exact .blocked ((Bool.not_eq_true _).mp hopen) hshort

theorem GoesOn.of_completes {q : FrameReader} {data rest : Bytes} (hok : q.Ok setup)
    (hverdict : q.verdict setup = r.verdict setup) (hsocket : r.socket = data ++ rest)
    (hpos : 0 < data.length) (hrest : q.socket = rest) : GoesOn setup r q :=
  ⟨hok, hverdict, by rw [hsocket, hrest, List.length_append]; omega⟩

theorem tlsTurn_follows (h : r.Ok setup) : TlsFollows setup r (r.tlsTurn setup) := by
  rw [tlsTurn]
  cases hstate : r.serving.connection.readState with
  | done =>
      refine .ends (.done hstate ?_)
      rw [FrameReader.verdict]
      exact Protocol.read_accepted (frames_want_done setup hstate)
  | header =>
      dsimp only
      have hopen := h.headerOpen
      have hremaining : r.headerRemaining = kHeaderBytes - r.headerBytesRead := rfl
      rcases hread : r.readAll setup r.headerRemaining with result | data
      · refine .ends (readAll_error hread ?_)
        rw [h.length_collected_header hstate, frames_want_header setup hstate]
        omega
      · obtain ⟨hlength, hsocket⟩ := readAll_ok hread
        dsimp only
        rcases hcall : (r.receivedHeader data).completeHeader setup with ⟨e | _, q⟩
        · cases h.completeHeader hsocket hstate (by omega) hcall with
          | refused hverdict _ => exact .ends (.refused hverdict)
        · cases h.completeHeader hsocket hstate (by omega) hcall with
          | taken hok hverdict hrest =>
              exact .again (.of_completes hok hverdict hsocket (by omega) hrest)
  | payload =>
      dsimp only
      have hopen := h.payloadOpen hstate
      have hremaining : r.payloadRemaining = r.serving.payloadSize - r.payloadBytesRead := rfl
      rcases hread : r.readAll setup r.payloadRemaining with result | data
      · refine .ends (readAll_error hread ?_)
        rw [h.length_collected_payload hstate, frames_want_payload setup hstate]
        omega
      · obtain ⟨hlength, hsocket⟩ := readAll_ok hread
        dsimp only
        rcases hcall : (r.receivedPayload data).completePayload setup with ⟨e | _, q⟩
        · cases h.completePayload hsocket hstate (by omega) hcall with
          | refused hverdict _ => exact .ends (.refused hverdict)
        · cases h.completePayload hsocket hstate (by omega) hcall with
          | taken hok hverdict hrest =>
              dsimp only
              split
              · exact .paused (.of_completes hok.resumed hverdict hsocket (by omega) hrest)
              · exact .again (.of_completes hok hverdict hsocket (by omega) hrest)

theorem TlsEnded.trans {q : FrameReader} {result : ReadResult} (h : GoesOn setup r q)
    (hended : TlsEnded setup q result r') : TlsEnded setup r result r' := by
  cases hended with
  | done hdone hverdict => exact .done hdone (h.verdict.symm.trans hverdict)
  | refused hverdict => exact .refused (h.verdict.symm.trans hverdict)
  | closed hcloses hverdict => exact .closed hcloses (h.verdict.symm.trans hverdict)
  | blocked hopen hverdict => exact .blocked hopen (h.verdict.symm.trans hverdict)

/-- A whole call: it ends for good, or with a pause.  Each round receives
something, so the rounds are enough. -/
theorem readFromTlsConnection_ended (n : Nat) (h : r.Ok setup) (hn : r.socket.length < n) :
    ∃ result q, (∀ rounds, r.socket.length < rounds →
        r.readFromTlsConnection setup rounds = some (result, q)) ∧
      (TlsEnded setup r result q ∨ (result = .returned ∧ GoesOn setup r q)) := by
  induction n generalizing r with
  | zero => exact absurd hn (Nat.not_lt_zero _)
  | succ n ih =>
      have hfollows := tlsTurn_follows h
      rcases hturn : r.tlsTurn setup with q | ⟨result, q⟩
      · rw [hturn] at hfollows
        cases hfollows with
        | again hgoes =>
            have hless := hgoes.less
            obtain ⟨result, q', hcall, hended⟩ := ih hgoes.ok (by omega)
            refine ⟨result, q', fun rounds hrounds => ?_, ?_⟩
            · obtain ⟨rounds, rfl⟩ : ∃ m, rounds = m + 1 := ⟨rounds - 1, by omega⟩
              rw [readFromTlsConnection, hturn]
              exact hcall rounds (by omega)
            · rcases hended with hended | ⟨hreturned, hgoes'⟩
              · exact Or.inl (hended.trans hgoes)
              · exact Or.inr ⟨hreturned, hgoes'.ok, hgoes'.verdict.trans hgoes.verdict,
                  hgoes'.less.trans hless⟩
      · rw [hturn] at hfollows
        refine ⟨result, q, fun rounds hrounds => ?_, ?_⟩
        · obtain ⟨rounds, rfl⟩ : ∃ m, rounds = m + 1 := ⟨rounds - 1, by omega⟩
          rw [readFromTlsConnection, hturn]
        · cases hfollows with
          | paused hgoes => exact Or.inr ⟨rfl, hgoes⟩
          | ends hended => exact Or.inl hended

/-- After FIN another call returns at once. -/
theorem readTlsCalls_done (hdone : r.serving.connection.readState = .done) {rounds : Nat}
    (hrounds : 0 < rounds) (calls : Nat) : r.readTlsCalls setup rounds calls = some (.returned, r) := by
  induction calls with
  | zero => rfl
  | succ calls ih =>
      have hcall : r.readFromTlsConnection setup rounds = some (.returned, r) := by
        obtain ⟨rounds, rfl⟩ : ∃ m, rounds = m + 1 := ⟨rounds - 1, by omega⟩
        rw [readFromTlsConnection, tlsTurn, hdone]
      rw [readTlsCalls, hcall]
      exact ih

/-- **Repeated calls** end as the protocol says. -/
theorem readTlsCalls_ended (n : Nat) (h : r.Ok setup) (hn : r.socket.length < n) :
    ∃ result q, TlsEnded setup r result q ∧ ∀ rounds calls, r.socket.length < rounds →
      r.socket.length < calls → r.readTlsCalls setup rounds calls = some (result, q) := by
  induction n generalizing r with
  | zero => exact absurd hn (Nat.not_lt_zero _)
  | succ n ih =>
      obtain ⟨result, q, hcall, hends⟩ := readFromTlsConnection_ended (n + 1) h hn
      rcases hends with hended | ⟨rfl, hgoes⟩
      · refine ⟨result, q, hended, fun rounds calls hrounds hcalls => ?_⟩
        obtain ⟨calls, rfl⟩ : ∃ m, calls = m + 1 := ⟨calls - 1, by omega⟩
        rw [readTlsCalls, hcall rounds hrounds]
        cases hended with
        | done hdone _ => exact readTlsCalls_done hdone (by omega) calls
        | refused _ => rfl
        | closed _ _ => rfl
        | blocked _ _ => rfl
      · have hless := hgoes.less
        obtain ⟨result, q', hended, hrest⟩ := ih hgoes.ok (by omega)
        refine ⟨result, q', hended.trans hgoes, fun rounds calls hrounds hcalls => ?_⟩
        obtain ⟨calls, rfl⟩ : ∃ m, calls = m + 1 := ⟨calls - 1, by omega⟩
        rw [readTlsCalls, hcall rounds hrounds]
        exact hrest rounds calls (by omega) (by omega)

/-! ### Both readers -/

/-- What repeated calls of `readFromConnection` have come to (`n`), next to what
`readFromTlsConnection` makes of the whole stream (`b`).  The texts for a
closed connection differ; the frame at which the reading stops does not. -/
structure SameReading (setup : ReaderSetup) (n b : ReadResult × FrameReader) : Prop where
  dispatched : n.2.serving.dispatched <+: b.2.serving.dispatched
  accepted : n.1 = .returned → n.2.serving.connection.readState = .done →
    b.1 = .returned ∧ n.2.serving = b.2.serving
  refused : ∀ e, n.1 = .refused e → b.1 = .refused e ∧ n.2.serving = b.2.serving
  closed : ∀ e, n.1 = .closed e → (∃ e', b.1 = .closed e') ∧ n.2.serving = b.2.serving
  waiting : n.1 = .returned → n.2.serving.connection.readState ≠ .done → n.2.socket = [] →
    b.1 = (if setup.peerCloses then .closed ⟨some .internalError, setup.closedStatus⟩
      else .blocked) ∧ n.2.serving = b.2.serving
  returns : n.1 ≠ .blocked

theorem Ok.collected_lt (h : r.Ok setup) (hopen : r.serving.connection.readState ≠ .done) :
    r.collected.length < (frames setup).want r.serving := by
  cases hstate : r.serving.connection.readState with
  | header =>
      rw [h.length_collected_header hstate, frames_want_header setup hstate]
      exact h.headerOpen
  | payload =>
      rw [h.length_collected_payload hstate, frames_want_payload setup hstate]
      exact h.payloadOpen hstate
  | done => exact absurd hstate hopen

/-- What the blocking reader comes to is told by the verdict. -/
theorem TlsEnded.of_short {result : ReadResult} {q : FrameReader} {s : Serving}
    (h : TlsEnded setup r result q) (hshort : r.verdict setup = (.short, s)) :
    result = (if setup.peerCloses then .closed ⟨some .internalError, setup.closedStatus⟩
      else .blocked) ∧ s = q.serving := by
  cases h with
  | done _ hverdict =>
      rw [hshort] at hverdict
      cases hverdict
  | refused hverdict =>
      rw [hshort] at hverdict
      cases hverdict
  | closed hcloses hverdict =>
      rw [hshort] at hverdict
      rw [if_pos hcloses]
      exact ⟨rfl, (Prod.mk.inj hverdict).2⟩
  | blocked hopen hverdict =>
      rw [hshort] at hverdict
      rw [hopen, if_neg Bool.false_ne_true]
      exact ⟨rfl, (Prod.mk.inj hverdict).2⟩

theorem TlsEnded.of_accepted {result : ReadResult} {q : FrameReader} {s : Serving}
    (h : TlsEnded setup r result q) (haccepted : r.verdict setup = (.accepted, s)) :
    result = .returned ∧ s = q.serving := by
  cases h with
  | done _ hverdict =>
      rw [haccepted] at hverdict
      exact ⟨rfl, (Prod.mk.inj hverdict).2⟩
  | refused hverdict =>
      rw [haccepted] at hverdict
      cases hverdict
  | closed _ hverdict =>
      rw [haccepted] at hverdict
      cases hverdict
  | blocked _ hverdict =>
      rw [haccepted] at hverdict
      cases hverdict

theorem TlsEnded.of_refused {result : ReadResult} {q : FrameReader} {s : Serving}
    {e : TransferError} (h : TlsEnded setup r result q)
    (hrefused : r.verdict setup = (.refused e, s)) : result = .refused e ∧ s = q.serving := by
  cases h with
  | done _ hverdict =>
      rw [hrefused] at hverdict
      cases hverdict
  | refused hverdict =>
      rw [hrefused] at hverdict
      cases hverdict
      exact ⟨rfl, rfl⟩
  | closed _ hverdict =>
      rw [hrefused] at hverdict
      cases hverdict
  | blocked _ hverdict =>
      rw [hrefused] at hverdict
      cases hverdict

theorem TlsEnded.serving_eq {result : ReadResult} {q : FrameReader} (h : TlsEnded setup r result q) :
    q.serving = (r.verdict setup).2 := by
  cases h with
  | done _ hverdict => rw [hverdict]
  | refused hverdict => rw [hverdict]
  | closed _ hverdict => rw [hverdict]
  | blocked _ hverdict => rw [hverdict]

theorem Ended.sameReading {n b : ReadResult × FrameReader} (h : Ended setup r n.1 n.2)
    (hb : TlsEnded setup r b.1 b.2) : SameReading setup n b := by
  obtain ⟨result, q⟩ := n
  dsimp only at h
  cases h with
  | returned hok hverdict =>
      refine ⟨?_, fun _ hdone => ?_, fun _ heq => (by cases heq), fun _ heq => (by cases heq),
        fun _ hopen hempty => ?_, ReadResult.noConfusion⟩
      · rw [hb.serving_eq, ← hverdict]
        exact frames_dispatched setup _ _
      · apply hb.of_accepted
        rw [← hverdict, FrameReader.verdict]
        exact Protocol.read_accepted (frames_want_done setup hdone)
      · apply hb.of_short
        rw [← hverdict]
        exact verdict_short hempty (hok.collected_lt hopen)
  | refused hrefused hbounded =>
      obtain ⟨hresult, hsame⟩ := hb.of_refused hrefused
      refine ⟨?_, fun heq => (by cases heq), fun e heq => ?_, fun _ heq => (by cases heq),
        fun heq => (by cases heq), ReadResult.noConfusion⟩
      · rw [← hsame]
      · cases heq
        exact ⟨hresult, hsame⟩
  | closed hcloses hshort hbounded =>
      obtain ⟨hresult, hsame⟩ := hb.of_short hshort
      rw [if_pos hcloses] at hresult
      refine ⟨?_, fun heq => (by cases heq), fun _ heq => (by cases heq),
        fun _ _ => ⟨⟨_, hresult⟩, hsame⟩, fun heq => (by cases heq), ReadResult.noConfusion⟩
      rw [← hsame]

theorem Ended.bounded {result : ReadResult} {q : FrameReader} (h : Ended setup r result q) :
    q.Bounded setup := by
  cases h with
  | returned hok _ => exact hok.toBounded
  | refused _ hbounded => exact hbounded
  | closed _ _ hbounded => exact hbounded

end FrameReader

/-- **Reading frames does not depend on the segmentation**: for every stream on
a new connection there is one thing the blocking reader makes of it, and
whatever the network does, repeated calls of the non-blocking reader come to
the same.  Its fill indices and receives stay inside the arrays, no receive
asks for nothing, and when something arrives for as many calls as there are
bytes, it is finished or has received everything. -/
theorem frameReading_agrees (setup : ReaderSetup) (transfer : TransferState) (window : UInt64)
    (world : World) (stream : Bytes) :
    ∃ b : ReadResult × FrameReader,
      (∀ rounds calls, stream.length < rounds → stream.length < calls →
        (FrameReader.accepted setup transfer window world stream).readTlsCalls setup rounds calls =
          some b) ∧
      ∀ calls n, (FrameReader.accepted setup transfer window world stream).readCalls setup calls = n →
        FrameReader.SameReading setup n b ∧ n.2.Bounded setup ∧
        (n.1 = .returned → stream.length ≤ calls.countP FrameReader.arrives →
          n.2.serving.connection.readState = .done ∨ n.2.socket = []) := by
  have hok := FrameReader.accepted_ok setup transfer window world stream
  obtain ⟨result, q, hended, hcalls⟩ :=
    FrameReader.readTlsCalls_ended _ hok (Nat.lt_succ_self _)
  refine ⟨(result, q), hcalls, ?_⟩
  rintro calls n rfl
  obtain ⟨hreads, henough⟩ := FrameReader.readCalls_ended hok calls
  exact ⟨hreads.sameReading hended, hreads.bounded, henough⟩

end FileTransferServer

end GridFlux
