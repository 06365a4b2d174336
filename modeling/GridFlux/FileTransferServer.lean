/-
GridFlux/FileTransferServer.lean

The upload receiver, `core/io/file_transfer_server.cpp`.

One thread serves all connections, so a run is a sequence of events: a
connection is accepted, a header or a payload of one connection is complete, a
connection is lost, or the receiver goes on by itself.  How the bytes of a
header or payload were split by the network does not matter to the handlers
and is not modelled; neither is the drain budget, which only decides when the
next event is taken.  This is the epoll loop; what the TLS loop does otherwise
is in TlsReceiver.

`TransferState` and `FileServerConnection` keep what the handlers read.  A
handler that fails returns the status code its ERROR frame carries, which the
source keeps in `transfer.errorCode`.
-/
import GridFlux.BufferedFileWriter
import GridFlux.Commit

namespace GridFlux

open HalfOpen TextCodec

inductive PreallocateMode
  | off
  | full
deriving DecidableEq, Repr

/-- What the receiver reads of `config::FileTransferOptions`. -/
structure FileTransferOptions extends CommitOptions where
  connections : Nat
  bufferSize : UInt32
  transferId : Bytes
  checksumBackend : ChecksumBackend
  manifestFlushPolicy : ManifestFlushPolicy
  manifestFlushIntervalChunks : UInt64
  preallocateMode : PreallocateMode
  fileIo : FileIoConfig
  resume : Bool
deriving DecidableEq, Repr

namespace FileTransferServer

/-! ### State -/

inductive ReadState
  | header
  | payload
  | done
deriving DecidableEq, Repr

structure FileServerConnection where
  readState : ReadState
  currentHeader : FrameHeader
  streamId : Nat
  hasStream : Bool
  sessionReady : Bool
  finReceived : Bool
  chunkActive : Bool
  activeChunkId : Nat
  activeChunkOffset : Nat
  activeChunkNextOffset : Nat
  checksumComputer : ChecksumComputer
  writer : BufferedFileWriter
deriving DecidableEq, Repr

/-- A connection that has just been accepted. -/
def FileServerConnection.new (options : FileTransferOptions) : FileServerConnection where
  readState := .header
  currentHeader := {}
  streamId := 0
  hasStream := false
  sessionReady := false
  finReceived := false
  chunkActive := false
  activeChunkId := 0
  activeChunkOffset := 0
  activeChunkNextOffset := 0
  checksumComputer := .new false .none .auto
  writer := .new options.fileIo

/-- What `TransferState` holds from the moment it has a session: the mode, the
sizes and names of the SessionInit that opened it, and the session. -/
structure ActiveTransfer where
  init : SessionInitPayload
  session : TransferSession
deriving DecidableEq, Repr

/-- A frame the receiver sends on one of its connections. -/
structure SentFrame where
  connection : Nat
  header : FrameHeader
  payload : Bytes
deriving DecidableEq, Repr

/-- `TransferState`; `active` is there when `hasSession`, and `sent` lists the
frames sent so far. -/
structure TransferState where
  active : Option ActiveTransfer
  finConnections : Nat
  streamsSeen : List Bool
  sent : List SentFrame
deriving DecidableEq, Repr

/-- A failure with the status code of its ERROR frame. -/
def replying {α : Type} (reply : FrameStatusCode) (x : Except Status α) :
    Except TransferError α :=
  x.mapError fun status => ⟨some reply, status⟩

@[simp] theorem replying_eq_ok {α : Type} {reply : FrameStatusCode} {x : Except Status α} {a : α} :
    replying reply x = .ok a ↔ x = .ok a := by
  cases x with
  | error e => simp [replying, Except.mapError]
  | ok b => simp [replying, Except.mapError]

/-- Fail with an `invalidArgument` unless the condition holds. -/
def check (c : Prop) [Decidable c] (reply : FrameStatusCode) (message : String) :
    Except TransferError Unit :=
  require c ⟨some reply, .invalidArgument (ascii message)⟩

@[simp] theorem check_eq_ok {c : Prop} [Decidable c] {reply : FrameStatusCode} {message : String}
    {u : Unit} : check c reply message = .ok u ↔ c :=
  require_eq_ok

/-! ### Headers -/

def validateStream (connection : FileServerConnection) (transfer : TransferState)
    (streamId expectedConnections : Nat) :
    Except TransferError (FileServerConnection × TransferState) := do
  check (¬streamId ≥ expectedConnections) .invalidFrame "frame stream_id exceeds connection count"
  if ¬connection.hasStream then
    check (transfer.streamsSeen[streamId]? ≠ some true) .invalidFrame "duplicate stream_id"
    return ({ connection with streamId := streamId, hasStream := true },
      { transfer with streamsSeen := transfer.streamsSeen.set streamId true })
  else
    check (connection.streamId = streamId) .invalidFrame "stream_id changed on one connection"
    return (connection, transfer)

def validateTransferHeader (connection : FileServerConnection) (transfer : TransferState)
    (header : FrameHeader) : Except TransferError Unit := do
  check connection.sessionReady .invalidFrame "DATA/FIN received before SessionInit"
  match transfer.active with
  | none =>
      .error ⟨some .internalError, .runtimeError (ascii "transfer session is not initialized")⟩
  | some active => do
      check (header.totalSize = active.init.totalSize) .sizeMismatch
        "frame total_size changed during transfer"
      check (connection.streamId = header.streamId.toNat) .invalidFrame
        "stream_id changed on one connection"

def processCompletedHeader (options : FileTransferOptions) (connection : FileServerConnection)
    (transfer : TransferState) (encoded : EncodedFrameHeader) :
    Except TransferError (FileServerConnection × TransferState) := do
  let header ← replying .invalidFrame (decodeFrameHeader encoded)
  replying .invalidFrame (validateFrameHeader header options.bufferSize)
  check (¬(header.type = .complete ∨ header.type = .error ∨ header.type = .resumeResponse))
    .invalidFrame "client sent server-only frame"
  let (connection, transfer) ←
    validateStream connection transfer header.streamId.toNat options.connections
  let connection := { connection with currentHeader := header }
  if header.type = .sessionInit then
    return ({ connection with readState := .payload }, transfer)
  else
    validateTransferHeader connection transfer header
    if header.type = .fin then
      check (¬connection.chunkActive) .invalidFrame "FIN received before ChunkComplete"
      return ({ connection with finReceived := true, readState := .done },
        { transfer with finConnections := transfer.finConnections + 1 })
    else
      return ({ connection with readState := .payload }, transfer)

/-! ### Opening the session -/

/-- The request the receiver makes of its options and a SessionInit. -/
def sessionRequest (options : FileTransferOptions) (init : SessionInitPayload) :
    SessionRequest TransferPaths where
  paths := ⟨options.path⟩
  transferId := init.transferId
  totalSize := init.totalSize
  chunkSize := init.chunkSize
  checksumAlgorithm := init.checksumAlgorithm
  checksumBackend := options.checksumBackend
  manifestFlushPolicy := options.manifestFlushPolicy
  manifestFlushIntervalChunks := options.manifestFlushIntervalChunks

/-- `openOutputForSession`.  All its failures are reported as `WriteFailed`. -/
def openOutputForSession (options : FileTransferOptions) (tempPath : Path) (totalSize : Nat)
    (w : World) : Effect Unit :=
  if options.resume then
    match w.openReadWrite tempPath with
    | (.error e, w) => (.error e, w)
    | (.ok _, w) => w.applyFileIoAdvice options.fileIo.advice totalSize
  else
    match w.openReadWriteExclusive tempPath with
    | (.error e, w) => (.error e, w)
    | (.ok _, w) =>
        match (if totalSize > 0 ∧ options.preallocateMode = .full then
            w.preallocate tempPath totalSize else (.ok (), w)) with
        | (.error e, w) => (.error e, w)
        | (.ok _, w) =>
            match w.resize tempPath totalSize with
            | (.error e, w) => (.error e, w)
            | (.ok _, w) => w.applyFileIoAdvice options.fileIo.advice totalSize

/-- The tests `initializeSession` begins with. -/
def checkSessionInit (options : FileTransferOptions) (init : SessionInitPayload) :
    Except TransferError Unit := do
  check (isValidTransferId init.transferId) .invalidFrame "invalid transfer_id"
  check (¬(options.transferId ≠ [] ∧ init.transferId ≠ options.transferId)) .invalidFrame
    "unexpected transfer_id"
  check ((init.mode = .resume) = (options.resume = true)) .invalidFrame
    "client/server resume mode mismatch"
  check (init.checksumAlgorithm = options.checksumAlgorithm) .checksumUnsupported
    "client/server checksum algorithm mismatch"

/-- A later SessionInit has to agree with the first one. -/
def checkSameSession (active : ActiveTransfer) (init : SessionInitPayload)
    (backend : ChecksumBackend) : Except TransferError Unit :=
  check (¬(active.init.mode ≠ init.mode ∨ active.init.transferId ≠ init.transferId ∨
      active.init.totalSize ≠ init.totalSize ∨ active.init.chunkSize ≠ init.chunkSize ∨
      active.init.checksumAlgorithm ≠ init.checksumAlgorithm ∨
      active.session.checksumBackend ≠ backend)) .sizeMismatch
    "session init changed during transfer"

/-- Is `text` a part of `message`? -/
def mentions (message text : Bytes) : Bool :=
  message.tails.any fun tail => text.isPrefixOf tail

/-- The first half of a new session: `resume` or `createNew`. -/
def openSession (options : FileTransferOptions) (init : SessionInitPayload) (w : World) :
    Except TransferError TransferSession × World :=
  match (if init.mode = .resume then TransferSession.resume (sessionRequest options init) w
      else TransferSession.createNew (sessionRequest options init) w) with
  | (.error e, w) =>
      (.error ⟨some (if mentions e.message (ascii "manifest") then .manifestCorrupt
        else .invalidFrame), e⟩, w)
  | (.ok s, w) => (.ok s, w)

/-- The second half: open the temp file, check what is in it, save. -/
def prepareSession (options : FileTransferOptions) (init : SessionInitPayload)
    (s : TransferSession) (w : World) : CommitResult TransferPaths :=
  match openOutputForSession options s.manifest.tempPath init.totalSize.toNat w with
  | (.error e, w) => (.error ⟨some .writeFailed, e⟩, s, w)
  | (.ok _, w) =>
      match (if init.mode = .resume then
          s.verifyTempChunks transferSessionFormat s.manifest.tempPath w
        else (.ok (), s, w)) with
      | (.error e, s, w) => (.error ⟨some .checksumMismatch, e⟩, s, w)
      | (.ok _, s, w) =>
          match s.save transferSessionFormat w with
          | (.error e, s, w) => (.error ⟨some .internalError, e⟩, s, w)
          | (.ok _, s, w) => (.ok (), s, w)

/-- `initializeSession`; the session it leaves is there even when it fails
later on, and is then marked failed. -/
def initializeSession (options : FileTransferOptions) (init : SessionInitPayload)
    (active : Option ActiveTransfer) (w : World) :
    Except TransferError Unit × Option ActiveTransfer × World :=
  match checkSessionInit options init with
  | .error e => (.error e, active, w)
  | .ok _ =>
      match resolveChecksumBackend w.crc32cHardwareAvailable init.checksumAlgorithm
          options.checksumBackend with
      | .error e => (.error ⟨some .checksumUnsupported, e⟩, active, w)
      | .ok backend =>
          match active with
          | some active => (checkSameSession active init backend, some active, w)
          | none =>
              match openSession options init w with
              | (.error e, w) => (.error e, none, w)
              | (.ok s, w) =>
                  match prepareSession options init s w with
                  | (result, s, w) => (result, some ⟨init, s⟩, w)

/-! ### Payloads -/

/-- A frame sent on one connection. -/
def sendFrame (w : World) : Effect Unit :=
  match w.nextOutcome with
  | .failure e _ => (.error (.systemError (ascii "send") e), w.afterCall)
  | .success => (.ok (), w.afterCall)

theorem sendFrame_frame (w : World) : World.Frame ∅ w (sendFrame w).2 := by
  rw [sendFrame]
  cases w.nextOutcome with
  | failure e moved => exact World.Frame.afterCall _ w
  | success => exact World.Frame.afterCall _ w

/-- `sendResumeResponse`: the frame, if it can be built. -/
def resumeResponse (options : FileTransferOptions) (connection : FileServerConnection)
    (active : ActiveTransfer) : Except TransferError (FrameHeader × Bytes) := do
  let payload ← replying .internalError
    (encodeResumeResponsePayload ⟨.ok, active.session.missingRanges⟩)
  require (payload.length ≤ options.bufferSize.toNat)
    ⟨some .internalError, .runtimeError (ascii "resume response exceeds buffer size")⟩
  return ({ type := .resumeResponse, streamId := UInt32.ofNat connection.streamId,
            payloadSize := UInt32.ofNat payload.length, totalSize := active.init.totalSize },
    payload)

/-- How a payload handler ends: the connection and the transfer it leaves. -/
abbrev HandlerResult :=
  Except TransferError Unit × FileServerConnection × TransferState × World

def processSessionInitPayload (options : FileTransferOptions) (index : Nat)
    (connection : FileServerConnection) (transfer : TransferState) (bytes : Bytes) (w : World) :
    HandlerResult :=
  match decodeSessionInitPayload bytes with
  | .error e => (.error ⟨some .invalidFrame, e⟩, connection, transfer, w)
  | .ok init =>
      match initializeSession options init transfer.active w with
      | (.error e, active, w) => (.error e, connection, { transfer with active := active }, w)
      | (.ok _, none, w) => (.ok (), connection, transfer, w)
      | (.ok _, some active, w) =>
          let transfer := { transfer with active := some active }
          let connection := { connection with sessionReady := true }
          match resumeResponse options connection active with
          | .error e => (.error e, connection, transfer, w)
          | .ok (header, payload) =>
              match sendFrame w with
              | (.error e, w) => (.error ⟨some .internalError, e⟩, connection, transfer, w)
              | (.ok _, w) =>
                  (.ok (), { connection with readState := .header },
                    { transfer with sent := transfer.sent ++ [⟨index, header, payload⟩] }, w)

/-- The DATA frame that begins a chunk. -/
def beginChunk (connection : FileServerConnection) (active : ActiveTransfer) (hardware : Bool) :
    FileServerConnection :=
  if connection.chunkActive then connection
  else { connection with
    chunkActive := true
    activeChunkId := connection.currentHeader.chunkId.toNat
    activeChunkOffset := connection.currentHeader.offset.toNat
    activeChunkNextOffset := connection.currentHeader.offset.toNat
    checksumComputer :=
      .new hardware active.init.checksumAlgorithm active.session.checksumBackend }

/-- `processDataPayload`.  By `validateFrameHeader` the next offset stays
within the total size, so the addition cannot wrap. -/
def processDataPayload (connection : FileServerConnection) (active : ActiveTransfer)
    (bytes : Bytes) (w : World) : Except TransferError FileServerConnection × World :=
  let header := connection.currentHeader
  let connection := beginChunk connection active w.crc32cHardwareAvailable
  if connection.activeChunkId ≠ header.chunkId.toNat ∨
      connection.activeChunkNextOffset ≠ header.offset.toNat then
    (.error ⟨some .invalidFrame,
      .invalidArgument (ascii "chunk DATA frames must be contiguous")⟩, w)
  else
    let (jobs, writer) := connection.writer.write header.offset.toNat bytes
    match w.runWrites active.session.manifest.tempPath jobs with
    | (.error e, w) => (.error ⟨some .writeFailed, e⟩, w)
    | (.ok _, w) =>
        (.ok { connection with
          writer := writer
          checksumComputer := connection.checksumComputer.update w.crc32cHardwareAvailable bytes
          activeChunkNextOffset := connection.activeChunkNextOffset + header.payloadSize.toNat
          readState := .header }, w)

def validateExpectedChunkRange (active : ActiveTransfer) (payload : ChunkCompletePayload) :
    Except TransferError Unit :=
  if active.init.checksumAlgorithm = .none then .ok ()
  else do
    let chunkSize := active.init.chunkSize.toNat
    let totalSize := active.init.totalSize.toNat
    check (payload.chunkId.toNat ≤ (2 ^ 64 - 1) / chunkSize) .rangeOutOfBounds
      "chunk_id overflows expected offset"
    let expectedOffset := payload.chunkId.toNat * chunkSize
    check (¬(expectedOffset ≥ totalSize ∧ totalSize ≠ 0)) .rangeOutOfBounds
      "chunk_id exceeds transfer size"
    check (totalSize ≠ 0) .rangeOutOfBounds "zero-byte transfer must not carry chunks"
    let expectedLength := min chunkSize (totalSize - expectedOffset)
    check (¬(payload.offset.toNat ≠ expectedOffset ∨ payload.length.toNat ≠ expectedLength))
      .rangeOutOfBounds "chunk complete range does not match chunk plan"

/-- The tests of `processChunkCompletePayload` up to the flush. -/
def checkChunkComplete (connection : FileServerConnection) (active : ActiveTransfer)
    (bytes : Bytes) : Except TransferError ChunkCompletePayload := do
  let payload ← replying .invalidFrame (decodeChunkCompletePayload bytes)
  check (¬(¬connection.chunkActive ∨ payload.chunkId.toNat ≠ connection.activeChunkId ∨
      payload.offset.toNat ≠ connection.activeChunkOffset ∨
      payload.length.toNat ≠ connection.activeChunkNextOffset - connection.activeChunkOffset))
    .invalidFrame "chunk complete does not match active chunk"
  check (payload.checksum.algorithm = active.init.checksumAlgorithm) .checksumUnsupported
    "chunk checksum algorithm mismatch"
  validateExpectedChunkRange active payload
  return payload

def processChunkCompletePayload (connection : FileServerConnection) (active : ActiveTransfer)
    (bytes : Bytes) (w : World) :
    Except TransferError FileServerConnection × TransferSession × World :=
  match checkChunkComplete connection active bytes with
  | .error e => (.error e, active.session, w)
  | .ok payload =>
      match w.runWrites active.session.manifest.tempPath connection.writer.flush.1 with
      | (.error e, w) => (.error ⟨some .writeFailed, e⟩, active.session, w)
      | (.ok _, w) =>
          if connection.checksumComputer.finalize ≠ payload.checksum then
            (.error ⟨some .checksumMismatch,
              .invalidArgument (ascii "chunk checksum mismatch")⟩, active.session, w)
          else
            match active.session.recordVerifiedChunk transferSessionFormat
                payload.chunkId.toNat payload.offset.toNat payload.length.toNat
                payload.checksum w with
            | (.error e, s, w) => (.error ⟨some .checksumMismatch, e⟩, s, w)
            | (.ok _, s, w) =>
                (.ok { connection with
                  writer := connection.writer.flush.2
                  chunkActive := false
                  readState := .header }, s, w)

/-- `processCompletedPayload`. -/
def processCompletedPayload (options : FileTransferOptions) (index : Nat)
    (connection : FileServerConnection) (transfer : TransferState) (bytes : Bytes) (w : World) :
    HandlerResult :=
  if connection.currentHeader.type = .sessionInit then
    processSessionInitPayload options index connection transfer bytes w
  else
    match transfer.active with
    | none => (.ok (), connection, transfer, w)
    | some active =>
        if connection.currentHeader.type = .chunkComplete then
          match processChunkCompletePayload connection active bytes w with
          | (.error e, s, w) =>
              (.error e, connection, { transfer with active := some { active with session := s } }, w)
          | (.ok connection, s, w) =>
              (.ok (), connection, { transfer with active := some { active with session := s } }, w)
        else
          match processDataPayload connection active bytes w with
          | (.error e, w) => (.error e, connection, transfer, w)
          | (.ok connection, w) => (.ok (), connection, transfer, w)

/-! ### Completion and commit -/

def transferComplete (transfer : TransferState) (expectedConnections : Nat) : Bool :=
  transfer.active.isSome ∧ transfer.finConnections = expectedConnections

/-- What has to succeed before the rename: nothing is missing, the final
verification, a flush of the manifest, and a free output path. -/
def checkReceived (options : FileTransferOptions) (totalSize : Nat) (s : TransferSession)
    (w : World) : CommitResult TransferPaths :=
  if s.missingRanges ≠ [] then
    s.fail transferSessionFormat .missingRange
      (.runtimeError (ascii "transfer has missing ranges")) w
  else
    match finalVerify transferSessionFormat options.toCommitOptions
        (ascii "final verify found missing ranges") totalSize s w with
    | (.error e, s, w) => (.error e, s, w)
    | (.ok _, s, w) =>
        match s.save transferSessionFormat w with
        | (.error e, s, w) => s.fail transferSessionFormat .internalError e w
        | (.ok _, s, w) =>
            match w.pathExists options.path with
            | (.error e, w) => s.fail transferSessionFormat .internalError e w
            | (.ok outputExists, w) =>
                if outputExists ∧ ¬options.overwrite then
                  s.fail transferSessionFormat .outputExists
                    (.invalidArgument (ascii "output file already exists; use --overwrite")) w
                else (.ok (), s, w)

/-- The commit of the receiver, from the last FIN to the answer. -/
def commit (options : FileTransferOptions) (totalSize : Nat) (s : TransferSession) (w : World) :
    CommitResult TransferPaths :=
  match checkReceived options totalSize s w with
  | (.error e, s, w) => (.error e, s, w)
  | (.ok _, s, w) => publish transferSessionFormat options.toCommitOptions s w

/-- `sendStatusToConnections` with `bestEffort` off: every connection is sent
its frame, the first failure is returned. -/
def sendStatusToConnections : Nat → World → Effect Unit
  | 0, w => (.ok (), w)
  | connections + 1, w =>
      match sendFrame w with
      | (.error e, w) => (.error e, (sendStatusToConnections connections w).2)
      | (.ok _, w) => sendStatusToConnections connections w

/-- The frames `sendStatusToConnections` sends. -/
def statusFrames (type : FrameType) (statusCode : FrameStatusCode) (totalSize : UInt64)
    (connections : Nat) : List SentFrame :=
  (List.range connections).map fun index =>
    ⟨index, { type := type, statusCode := statusCode, totalSize := totalSize }, []⟩

/-- `validateServerOutputState`. -/
def validateServerOutputState (options : FileTransferOptions) (w : World) : Effect Unit :=
  match w.pathExists options.path with
  | (.error e, w) => (.error e, w)
  | (.ok outputExists, w) =>
      if outputExists ∧ ¬options.overwrite then
        (.error (.invalidArgument (ascii "output file already exists; use --overwrite")), w)
      else
        match w.pathExists (manifestPathForOutput options.path) with
        | (.error e, w) => (.error e, w)
        | (.ok manifestExists, w) =>
            if manifestExists ∧ ¬options.resume then
              (.error (.invalidArgument (ascii "manifest already exists; use --resume")), w)
            else if ¬manifestExists ∧ options.resume then
              (.error (.invalidArgument (ascii "manifest is required for --resume")), w)
            else (.ok (), w)

/-! ### The receiver -/

inductive Phase
  | receiving
  /-- everything before the rename has succeeded -/
  | verified
  /-- `markCommitted` has succeeded -/
  | committed
  | returned (status : Except Status Unit)

/-- A running receiver. -/
structure Receiver where
  options : FileTransferOptions
  phase : Phase
  connections : List FileServerConnection
  transfer : TransferState

inductive Event
  | accepted
  | header (index : Nat) (encoded : EncodedFrameHeader)
  | payload (index : Nat) (bytes : Bytes)
  | lost (status : Status)
  | proceed

namespace Receiver

/-- The receiver before the first connection. -/
def start (options : FileTransferOptions) (w : World) : Except Status Receiver × World :=
  match validateServerOutputState options w with
  | (.error e, w) => (.error e, w)
  | (.ok _, w) =>
      match validateFileIoConfig options.fileIo with
      | .error e => (.error e, w)
      | .ok _ =>
          (.ok ⟨options, .receiving, [], ⟨none, 0, List.replicate options.connections false, []⟩⟩,
            w)

def totalSize (r : Receiver) : UInt64 :=
  match r.transfer.active with
  | none => 0
  | some active => active.init.totalSize

/-- Tell the connections, if there is anything to tell, and return. -/
def finish (r : Receiver) (e : TransferError) : Receiver :=
  { r with
    phase := .returned (.error e.status)
    transfer := { r.transfer with
      sent := match e.reply with
        | none => r.transfer.sent
        | some reply =>
            r.transfer.sent ++ statusFrames .error reply r.totalSize r.connections.length } }

/-- The way out of the event loop: an ERROR frame to everyone and
`markFailedBestEffort`. -/
def abort (r : Receiver) (e : TransferError) (w : World) : Receiver × World :=
  match r.transfer.active with
  | none => (r.finish e, w)
  | some active =>
      match active.session.markFailed transferSessionFormat w with
      | (_, s, w) =>
          ({ r with transfer := { r.transfer with
            active := some { active with session := s } } }.finish e, w)

/-- The event loop looks at the missing ranges itself as soon as all streams
have finished. -/
def finishedWithMissing (r : Receiver) (active : ActiveTransfer) (w : World) :
    Receiver × World :=
  match active.session.fail transferSessionFormat .missingRange
      (.runtimeError (ascii "all streams finished with missing ranges")) w with
  | (result, s, w) =>
      let r := { r with transfer := { r.transfer with
        active := some { active with session := s } } }
      match result with
      | .error e => (r.finish e, w)
      | .ok _ => (r, w)

/-- The step from the last FIN to the rename. -/
def verify (r : Receiver) (active : ActiveTransfer) (w : World) : Receiver × World :=
  match checkReceived r.options active.init.totalSize.toNat active.session w with
  | (result, s, w) =>
      let r := { r with transfer := { r.transfer with
        active := some { active with session := s } } }
      match result with
      | .error e => (r.finish e, w)
      | .ok _ => ({ r with phase := .verified }, w)

/-- The step from the rename to `markCommitted`. -/
def rename (r : Receiver) (active : ActiveTransfer) (w : World) : Receiver × World :=
  match publish transferSessionFormat r.options.toCommitOptions active.session w with
  | (result, s, w) =>
      let r := { r with transfer := { r.transfer with
        active := some { active with session := s } } }
      match result with
      | .error e => (r.finish e, w)
      | .ok _ => ({ r with phase := .committed }, w)

/-- The COMPLETE frames. -/
def complete (r : Receiver) (w : World) : Receiver × World :=
  match sendStatusToConnections r.connections.length w with
  | (status, w) =>
      ({ r with
        phase := .returned status
        transfer := { r.transfer with
          sent := r.transfer.sent ++
            statusFrames .complete .ok r.totalSize r.connections.length } }, w)

/-- An event of the event loop. -/
def receive (r : Receiver) (event : Event) (w : World) : Receiver × World :=
  match event with
  | .accepted =>
      if r.connections.length < r.options.connections then
        ({ r with connections := r.connections ++ [.new r.options] }, w)
      else (r, w)
  | .header index encoded =>
      match r.connections[index]? with
      | none => (r, w)
      | some connection =>
          if connection.readState = .header then
            match processCompletedHeader r.options connection r.transfer encoded with
            | .error e => r.abort e w
            | .ok (connection, transfer) =>
                ({ r with
                  connections := r.connections.set index connection, transfer := transfer }, w)
          else (r, w)
  | .payload index bytes =>
      match r.connections[index]? with
      | none => (r, w)
      | some connection =>
          if connection.readState = .payload ∧
              bytes.length = connection.currentHeader.payloadSize.toNat then
            match processCompletedPayload r.options index connection r.transfer bytes w with
            | (.error e, _, transfer, w) => { r with transfer := transfer }.abort e w
            | (.ok _, connection, transfer, w) =>
                ({ r with
                  connections := r.connections.set index connection, transfer := transfer }, w)
          else (r, w)
  | .lost status => r.abort ⟨some .internalError, status⟩ w
  | .proceed =>
      match r.transfer.active with
      | none => (r, w)
      | some active =>
          if transferComplete r.transfer r.options.connections then
            -- the listener is closed once all connections have been accepted
            if ¬r.connections.length < r.options.connections ∧
                active.session.missingRanges ≠ [] then r.finishedWithMissing active w
            else r.verify active w
          else (r, w)

/-- One event. -/
def step (r : Receiver) (event : Event) (w : World) : Receiver × World :=
  match r.phase with
  | .receiving => r.receive event w
  | .verified =>
      match event, r.transfer.active with
      | .proceed, some active => r.rename active w
      | _, _ => (r, w)
  | .committed =>
      match event with
      | .proceed => r.complete w
      | _ => (r, w)
  | .returned _ => (r, w)

end Receiver

end FileTransferServer

end GridFlux
