/-
GridFlux/FileDownloadClient.lean

The download receiver, `core/io/file_download_client.cpp`.

Every stream has a thread; the threads share a `SharedDownloadState`, and
whatever they do with it they do under its mutex, one after another.  A step of
a thread takes the shared state or the thread's own `DownloadStream`; the two
meet in the session only.

A handler that fails returns the status code of the ERROR frame its thread
sends on its connection, if it sends one.  `options.maxChunks`, which ends a
transfer early for tests, is left out.
-/
import GridFlux.FileTransferServer

namespace GridFlux

open HalfOpen TextCodec
open FileTransferServer (check replying sendFrame)

/-- What the receiver reads of `config::FileDownloadOptions`. -/
structure FileDownloadOptions extends CommitOptions where
  connections : Nat
  bufferSize : UInt32
  transferId : Bytes
  checksumBackend : ChecksumBackend
  manifestFlushPolicy : ManifestFlushPolicy
  manifestFlushIntervalChunks : UInt64
  preallocateMode : PreallocateMode
  fileIo : FileIoConfig
  resume : Bool
deriving DecidableEq, Repr

namespace FileDownloadClient

/-- `SharedDownloadState`; `session` is there once the object has been
assigned, which is before `sessionReady`. -/
structure SharedDownloadState where
  sessionReady : Bool
  sizeKnown : Bool
  knownTotalSize : UInt64
  knownChunkSize : UInt64
  sourcePath : Bytes
  streamsSeen : List Bool
  session : Option DownloadSession
deriving DecidableEq, Repr

/-- The shared state before the first thread. -/
def SharedDownloadState.new (options : FileDownloadOptions) : SharedDownloadState where
  sessionReady := false
  sizeKnown := false
  knownTotalSize := 0
  knownChunkSize := 0
  sourcePath := []
  streamsSeen := List.replicate options.connections false
  session := none

/-- The local variables of `receiveStream` from the ResumeResponse on. -/
structure DownloadStream where
  streamId : Nat
  init : SessionInitPayload
  chunkActive : Bool
  activeChunkId : Nat
  activeChunkOffset : Nat
  activeChunkNextOffset : Nat
  checksumComputer : ChecksumComputer
  writer : BufferedFileWriter
deriving DecidableEq, Repr

/-! ### Opening the session -/

/-- `readSessionInit`: the payload, and the stream id of its frame. -/
def readSessionInit (options : FileDownloadOptions) (encoded : EncodedFrameHeader)
    (bytes : Bytes) : Except Status (Nat × SessionInitPayload) := do
  let header ← decodeFrameHeader encoded
  validateFrameHeader header options.bufferSize
  require (header.type = .sessionInit) (.invalidArgument (ascii "expected SessionInit"))
  require (¬header.streamId.toNat ≥ options.connections)
    (.invalidArgument (ascii "stream_id exceeds connection count"))
  let payload ← decodeSessionInitPayload bytes
  require (¬(options.resume = true ∧ payload.mode ≠ .resume))
    (.invalidArgument (ascii "expected resume SessionInit"))
  require (¬(options.resume = false ∧ payload.mode ≠ .new))
    (.invalidArgument (ascii "unexpected resume SessionInit"))
  require (payload.transferId = options.transferId)
    (.invalidArgument (ascii "unexpected transfer_id"))
  require (payload.checksumAlgorithm = options.checksumAlgorithm)
    (.invalidArgument (ascii "checksum algorithm mismatch"))
  return (header.streamId.toNat, payload)

/-- The source path a session keeps. -/
def sessionSourcePath (init : SessionInitPayload) : Bytes :=
  if init.sourcePath = [] then ascii "<unknown>" else init.sourcePath

/-- The request a client makes of its options and a SessionInit; `backend` is
what its checksum options resolve to. -/
def sessionRequest (options : FileDownloadOptions) (init : SessionInitPayload)
    (backend : ChecksumBackend) : SessionRequest DownloadPaths where
  paths := ⟨sessionSourcePath init, options.path⟩
  transferId := options.transferId
  totalSize := init.totalSize
  chunkSize := init.chunkSize
  checksumAlgorithm := options.checksumAlgorithm
  checksumBackend := backend
  manifestFlushPolicy := options.manifestFlushPolicy
  manifestFlushIntervalChunks := options.manifestFlushIntervalChunks

/-- How the first SessionInit is taken: the status, and the session that has
been assigned by then, if any. -/
abbrev OpenResult := Except Status Unit × Option DownloadSession × World

/-- The branch of `prepareDownloadSession` for `--resume`. -/
def resumeSession (options : FileDownloadOptions) (request : SessionRequest DownloadPaths)
    (w : World) : OpenResult :=
  match DownloadSession.resume request w with
  | (.error e, w) => (.error e, none, w)
  | (.ok s, w) =>
      match w.openReadWrite s.manifest.tempPath with
      | (.error e, w) => (.error e, some s, w)
      | (.ok _, w) =>
          match w.applyFileIoAdvice options.fileIo.advice request.totalSize.toNat with
          | (.error e, w) => (.error e, some s, w)
          | (.ok _, w) =>
              match s.verifyTempChunks downloadSessionFormat s.manifest.tempPath w with
              | (status, s, w) => (status, some s, w)

/-- The tests a new download begins with. -/
def checkOutputFree (options : FileDownloadOptions) (w : World) : Effect Unit :=
  match w.pathExists options.path with
  | (.error e, w) => (.error e, w)
  | (.ok outputExists, w) =>
      if outputExists ∧ ¬options.overwrite then
        (.error (.invalidArgument (ascii "output file already exists; use --overwrite")), w)
      else if options.overwrite then (.ok (), w)
      else
        match w.pathExists (downloadManifestPathForOutput options.path) with
        | (.error e, w) => (.error e, w)
        | (.ok manifestExists, w) =>
            if manifestExists then
              (.error (.invalidArgument
                (ascii "download manifest already exists; use --resume")), w)
            else (.ok (), w)

/-- What is removed before a new temp file is made, whether or not the calls
succeed: with `--overwrite` also the old output. -/
def removeOldFiles (options : FileDownloadOptions) (tempPath : Path) (w : World) : World :=
  let w :=
    if options.overwrite then
      ((w.removePath options.path).2.removePath (downloadManifestPathForOutput options.path)).2
    else w
  (w.removePath tempPath).2

/-- The new temp file, and the manifest that goes with it. -/
def createTemp (options : FileDownloadOptions) (totalSize : Nat) (s : DownloadSession)
    (w : World) : OpenResult :=
  match w.openReadWriteExclusive s.manifest.tempPath with
  | (.error e, w) => (.error e, some s, w)
  | (.ok _, w) =>
      match (if totalSize > 0 ∧ options.preallocateMode = .full then
          w.preallocate s.manifest.tempPath totalSize else (.ok (), w)) with
      | (.error e, w) => (.error e, some s, w)
      | (.ok _, w) =>
          match w.resize s.manifest.tempPath totalSize with
          | (.error e, w) => (.error e, some s, w)
          | (.ok _, w) =>
              match w.applyFileIoAdvice options.fileIo.advice totalSize with
              | (.error e, w) => (.error e, some s, w)
              | (.ok _, w) =>
                  match s.save downloadSessionFormat w with
                  | (status, s, w) => (status, some s, w)

/-- The branch for a new download. -/
def createSession (options : FileDownloadOptions) (request : SessionRequest DownloadPaths)
    (w : World) : OpenResult :=
  match checkOutputFree options w with
  | (.error e, w) => (.error e, none, w)
  | (.ok _, w) =>
      match DownloadSession.createNew request w with
      | (.error e, w) => (.error e, none, w)
      | (.ok s, w) =>
          createTemp options request.totalSize.toNat s
            (removeOldFiles options s.manifest.tempPath w)

/-- A later SessionInit has to agree with the one before it. -/
def checkSameSession (state : SharedDownloadState) (init : SessionInitPayload) :
    Except Status Unit := do
  require (state.knownTotalSize = init.totalSize)
    (.invalidArgument (ascii "session total_size mismatch"))
  require (state.knownChunkSize = init.chunkSize)
    (.invalidArgument (ascii "session chunk_size mismatch"))
  require (state.sourcePath = sessionSourcePath init)
    (.invalidArgument (ascii "session source_path mismatch"))

/-- `prepareDownloadSession`, up to the missing ranges it returns.  When it
fails for one stream, the next stream to come tries again. -/
def prepareDownloadSession (options : FileDownloadOptions) (init : SessionInitPayload)
    (backend : ChecksumBackend) (state : SharedDownloadState) (w : World) :
    Except Status Unit × SharedDownloadState × World :=
  if state.sessionReady then (checkSameSession state init, state, w)
  else
    let state := { state with
      knownTotalSize := init.totalSize
      knownChunkSize := init.chunkSize
      sourcePath := sessionSourcePath init
      sizeKnown := true }
    let request := sessionRequest options init backend
    match (if options.resume then resumeSession options request w
        else createSession options request w) with
    | (.error e, s, w) => (.error e, { state with session := s <|> state.session }, w)
    | (.ok _, s, w) =>
        (.ok (), { state with session := s <|> state.session, sessionReady := true }, w)

/-! ### Answering -/

/-- `sendResumeResponse`: the frame, if it can be built. -/
def resumeResponse (options : FileDownloadOptions) (streamId : Nat) (totalSize : UInt64)
    (missingRanges : List CompletedRange) : Except Status (FrameHeader × Bytes) := do
  let payload ← encodeResumeResponsePayload ⟨.ok, missingRanges⟩
  require (payload.length ≤ options.bufferSize.toNat)
    (.runtimeError (ascii "ResumeResponse payload exceeds buffer size"))
  return ({ type := .resumeResponse, streamId := UInt32.ofNat streamId,
            payloadSize := UInt32.ofNat payload.length, totalSize := totalSize }, payload)

/-! ### Receiving -/

/-- The DATA frame that begins a chunk. -/
def beginChunk (options : FileDownloadOptions) (backend : ChecksumBackend)
    (stream : DownloadStream) (header : FrameHeader) (hardware : Bool) : DownloadStream :=
  if stream.chunkActive then stream
  else { stream with
    chunkActive := true
    activeChunkId := header.chunkId.toNat
    activeChunkOffset := header.offset.toNat
    activeChunkNextOffset := header.offset.toNat
    checksumComputer := .new hardware options.checksumAlgorithm backend }

/-- A DATA frame of `receiveStream`, its header already validated. -/
def receiveData (options : FileDownloadOptions) (backend : ChecksumBackend) (tempPath : Path)
    (stream : DownloadStream) (header : FrameHeader) (bytes : Bytes) (w : World) :
    Except TransferError DownloadStream × World :=
  if header.streamId.toNat ≠ stream.streamId ∨ header.totalSize ≠ stream.init.totalSize then
    (.error ⟨some .invalidFrame, .invalidArgument (ascii "invalid DATA header")⟩, w)
  else
    let stream := beginChunk options backend stream header w.crc32cHardwareAvailable
    if stream.activeChunkId ≠ header.chunkId.toNat ∨
        stream.activeChunkNextOffset ≠ header.offset.toNat then
      (.error ⟨some .invalidFrame,
        .invalidArgument (ascii "chunk DATA frames must be contiguous")⟩, w)
    else if header.payloadSize > options.bufferSize then
      (.error ⟨some .invalidFrame, .invalidArgument (ascii "DATA payload exceeds buffer")⟩, w)
    else
      let (jobs, writer) := stream.writer.write header.offset.toNat bytes
      match w.runWrites tempPath jobs with
      | (.error e, w) => (.error ⟨some .writeFailed, e⟩, w)
      | (.ok _, w) =>
          (.ok { stream with
            writer := writer
            checksumComputer := stream.checksumComputer.update w.crc32cHardwareAvailable bytes
            activeChunkNextOffset :=
              stream.activeChunkNextOffset + header.payloadSize.toNat }, w)

/-- A CHUNK_COMPLETE frame of `receiveStream`. -/
def receiveChunkComplete (options : FileDownloadOptions) (stream : DownloadStream)
    (s : DownloadSession) (bytes : Bytes) (w : World) :
    Except TransferError DownloadStream × DownloadSession × World :=
  match decodeChunkCompletePayload bytes with
  | .error e => (.error ⟨some .invalidFrame, e⟩, s, w)
  | .ok payload =>
      if ¬stream.chunkActive ∨ payload.chunkId.toNat ≠ stream.activeChunkId ∨
          payload.offset.toNat ≠ stream.activeChunkOffset ∨
          payload.length.toNat ≠ stream.activeChunkNextOffset - stream.activeChunkOffset ∨
          payload.checksum.algorithm ≠ options.checksumAlgorithm then
        (.error ⟨some .invalidFrame, .invalidArgument (ascii "invalid ChunkComplete")⟩, s, w)
      else
        match w.runWrites s.manifest.tempPath stream.writer.flush.1 with
        | (.error e, w) => (.error ⟨some .writeFailed, e⟩, s, w)
        | (.ok _, w) =>
            if stream.checksumComputer.finalize ≠ payload.checksum then
              (.error ⟨some .checksumMismatch,
                .invalidArgument (ascii "chunk checksum mismatch")⟩, s, w)
            else
              match s.recordVerifiedChunk downloadSessionFormat payload.chunkId.toNat
                  payload.offset.toNat payload.length.toNat payload.checksum w with
              | (.error e, s, w) => (.error ⟨some .checksumMismatch, e⟩, s, w)
              | (.ok _, s, w) =>
                  (.ok { stream with
                    writer := stream.writer.flush.2, chunkActive := false }, s, w)

/-! ### Commit -/

/-- What has to succeed before the output path is looked at: the temp file has
its size, nothing is missing, the final verification. -/
def checkReceived (options : FileDownloadOptions) (totalSize : Nat) (s : DownloadSession)
    (w : World) : CommitResult DownloadPaths :=
  match w.resize s.manifest.tempPath totalSize with
  | (.error e, w) => s.fail downloadSessionFormat .internalError e w
  | (.ok _, w) =>
      if s.missingRanges ≠ [] then
        s.fail downloadSessionFormat .missingRange
          (.runtimeError (ascii "download is missing verified chunks")) w
      else
        finalVerify downloadSessionFormat options.toCommitOptions
          (ascii "download temp preflight found missing chunks") totalSize s w

/-- Make room for the output; with `--overwrite` the old one is removed. -/
def freeOutput (options : FileDownloadOptions) (s : DownloadSession) (w : World) :
    CommitResult DownloadPaths :=
  match w.pathExists options.path with
  | (.error e, w) => s.fail downloadSessionFormat .internalError e w
  | (.ok outputExists, w) =>
      if outputExists ∧ ¬options.overwrite then
        s.fail downloadSessionFormat .outputExists
          (.invalidArgument (ascii "output file already exists; use --overwrite")) w
      else if outputExists then
        match w.removePath options.path with
        | (.error e, w) => s.fail downloadSessionFormat .internalError e w
        | (.ok _, w) => (.ok (), s, w)
      else (.ok (), s, w)

/-- The tail of `runFileDownloadClient`, after all threads have ended well.
The client has no connection left to send a status to, so the reply codes mean
nothing here. -/
def commit (options : FileDownloadOptions) (totalSize : Nat) (s : DownloadSession) (w : World) :
    CommitResult DownloadPaths :=
  match checkReceived options totalSize s w with
  | (.error e, s, w) => (.error e, s, w)
  | (.ok _, s, w) =>
      match freeOutput options s w with
      | (.error e, s, w) => (.error e, s, w)
      | (.ok _, s, w) => publish downloadSessionFormat options.toCommitOptions s w

end FileDownloadClient

end GridFlux
