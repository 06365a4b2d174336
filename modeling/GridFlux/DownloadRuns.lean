/-
GridFlux/DownloadRuns.lean

Runs of `runFileDownloadClient`: the threads of `receiveStream`, each about to
do one thing, the state they share, and what the main thread does once all of
them have ended.

A step is one access of a thread to what it shares with the others: a critical
section under the mutex, one `pwrite` into the temp file (which may move only
some of its bytes), or a frame from its own connection.  The threads take their
steps in any order.
-/
import GridFlux.FileDownloadClient
import GridFlux.Transition

namespace GridFlux

open HalfOpen TextCodec Transition
open FileTransferServer (check replying sendFrame sendFrame_frame)

namespace FileDownloadClient

/-! ### The handlers, up to their writes -/

/-- The local variables of `receiveStream` once the answer has been sent. -/
def DownloadStream.new (options : FileDownloadOptions) (backend : ChecksumBackend)
    (streamId : Nat) (init : SessionInitPayload) (hardware : Bool) : DownloadStream where
  streamId := streamId
  init := init
  chunkActive := false
  activeChunkId := 0
  activeChunkOffset := 0
  activeChunkNextOffset := 0
  checksumComputer := .new hardware options.checksumAlgorithm backend
  writer := .new options.fileIo

/-- The tests of a DATA frame; then the writes it asks for, and the stream once
they have been made. -/
def takeData (options : FileDownloadOptions) (backend : ChecksumBackend)
    (stream : DownloadStream) (header : FrameHeader) (bytes : Bytes) (hardware : Bool) :
    Except TransferError (DownloadStream × List WriteJob) :=
  if header.streamId.toNat ≠ stream.streamId ∨ header.totalSize ≠ stream.init.totalSize then
    .error ⟨some .invalidFrame, .invalidArgument (ascii "invalid DATA header")⟩
  else
    let stream := beginChunk options backend stream header hardware
    if stream.activeChunkId ≠ header.chunkId.toNat ∨
        stream.activeChunkNextOffset ≠ header.offset.toNat then
      .error ⟨some .invalidFrame,
        .invalidArgument (ascii "chunk DATA frames must be contiguous")⟩
    else if header.payloadSize > options.bufferSize then
      .error ⟨some .invalidFrame, .invalidArgument (ascii "DATA payload exceeds buffer")⟩
    else
      let (jobs, writer) := stream.writer.write header.offset.toNat bytes
      .ok ({ stream with
        writer := writer
        checksumComputer := stream.checksumComputer.update hardware bytes
        activeChunkNextOffset := stream.activeChunkNextOffset + header.payloadSize.toNat }, jobs)

/-- The writes a DATA frame asks for, one after the other. -/
def writeTaken (tempPath : Path) (taken : Except TransferError (DownloadStream × List WriteJob))
    (w : World) : Except TransferError DownloadStream × World :=
  match taken with
  | .error e => (.error e, w)
  | .ok (stream, jobs) =>
      match w.runWrites tempPath jobs with
      | (.error e, w) => (.error ⟨some .writeFailed, e⟩, w)
      | (.ok _, w) => (.ok stream, w)

/-- `receiveData` is `takeData`, and then its writes. -/
theorem receiveData_eq (options : FileDownloadOptions) (backend : ChecksumBackend)
    (tempPath : Path) (stream : DownloadStream) (header : FrameHeader) (bytes : Bytes)
    (w : World) :
    receiveData options backend tempPath stream header bytes w = writeTaken tempPath
      (takeData options backend stream header bytes w.crc32cHardwareAvailable) w := by
  rw [receiveData, takeData]
  split
  · rfl
  · dsimp only
    split
    · rfl
    · split
      · rfl
      · generalize beginChunk options backend stream header w.crc32cHardwareAvailable = begun
        rcases begun.writer.write header.offset.toNat bytes with ⟨jobs, writer⟩
        rw [writeTaken]
        have hframe := w.runWrites_frame tempPath jobs
        dsimp only
        rcases hrun : w.runWrites tempPath jobs with ⟨e | _, w'⟩
        · rfl
        · -- the writes have not changed the machine
          rw [hrun] at hframe
          have hhardware : w'.crc32cHardwareAvailable = w.crc32cHardwareAvailable :=
            hframe.hardware
          simp only [hhardware]

/-- The tests of a CHUNK_COMPLETE frame. -/
def takeComplete (options : FileDownloadOptions) (stream : DownloadStream) (bytes : Bytes) :
    Except TransferError ChunkCompletePayload :=
  match decodeChunkCompletePayload bytes with
  | .error e => .error ⟨some .invalidFrame, e⟩
  | .ok payload =>
      if ¬stream.chunkActive ∨ payload.chunkId.toNat ≠ stream.activeChunkId ∨
          payload.offset.toNat ≠ stream.activeChunkOffset ∨
          payload.length.toNat ≠ stream.activeChunkNextOffset - stream.activeChunkOffset ∨
          payload.checksum.algorithm ≠ options.checksumAlgorithm then
        .error ⟨some .invalidFrame, .invalidArgument (ascii "invalid ChunkComplete")⟩
      else .ok payload

/-- What a CHUNK_COMPLETE frame leads to after the flush: the comparison of the
checksums, and the record. -/
def recordComplete (stream : DownloadStream) (payload : ChunkCompletePayload)
    (s : DownloadSession) (w : World) :
    Except TransferError DownloadStream × DownloadSession × World :=
  if stream.checksumComputer.finalize ≠ payload.checksum then
    (.error ⟨some .checksumMismatch,
      .invalidArgument (ascii "chunk checksum mismatch")⟩, s, w)
  else
    match s.recordVerifiedChunk downloadSessionFormat payload.chunkId.toNat
        payload.offset.toNat payload.length.toNat payload.checksum w with
    | (.error e, s, w) => (.error ⟨some .checksumMismatch, e⟩, s, w)
    | (.ok _, s, w) => (.ok { stream with chunkActive := false }, s, w)

/-- The flush a CHUNK_COMPLETE frame asks for, and the record. -/
def flushTaken (taken : Except TransferError ChunkCompletePayload) (stream : DownloadStream)
    (s : DownloadSession) (w : World) :
    Except TransferError DownloadStream × DownloadSession × World :=
  match taken with
  | .error e => (.error e, s, w)
  | .ok payload =>
      match w.runWrites s.manifest.tempPath stream.writer.flush.1 with
      | (.error e, w) => (.error ⟨some .writeFailed, e⟩, s, w)
      | (.ok _, w) => recordComplete { stream with writer := stream.writer.flush.2 } payload s w

/-- `receiveChunkComplete` is `takeComplete`, the flush and `recordComplete`. -/
theorem receiveChunkComplete_eq (options : FileDownloadOptions) (stream : DownloadStream)
    (s : DownloadSession) (bytes : Bytes) (w : World) :
    receiveChunkComplete options stream s bytes w =
      flushTaken (takeComplete options stream bytes) stream s w := by
  rw [receiveChunkComplete, takeComplete]
  cases decodeChunkCompletePayload bytes with
  | error e => rfl
  | ok payload =>
      dsimp only
      split
      · rfl
      · rw [flushTaken]
        rcases w.runWrites s.manifest.tempPath stream.writer.flush.1 with ⟨e | _, w'⟩
        · rfl
        · rfl

/-! ### The client -/

/-- What a thread of `receiveStream` is about to do. -/
inductive StreamTask
  /-- read the SessionInit -/
  | connect
  /-- `prepareDownloadSession`, its stream id taken -/
  | prepare (streamId : Nat) (init : SessionInitPayload)
  /-- answer with the missing ranges -/
  | answer (streamId : Nat) (init : SessionInitPayload) (missing : List CompletedRange)
  /-- read a frame -/
  | receive (stream : DownloadStream)
  /-- make the writes, and then read on or record the chunk -/
  | write (stream : DownloadStream) (jobs : List WriteJob) (complete : Option ChunkCompletePayload)
  | ended (status : Except Status Unit)

/-- The status of a thread that has failed. -/
def StreamTask.failure? : StreamTask → Option Status
  | .ended (.error e) => some e
  | _ => none

def StreamTask.hasEnded : StreamTask → Bool
  | .ended _ => true
  | _ => false

/-- How far the main thread is. -/
inductive Phase
  /-- it waits for the threads -/
  | streaming
  /-- the checks have passed -/
  | checked
  /-- there is room for the output -/
  | freed
  /-- the temp file has become the output -/
  | renamed
  | returned (status : Except Status Unit) (afterRename : Bool)

/-- A running client. -/
structure Client where
  options : FileDownloadOptions
  backend : ChecksumBackend
  shared : SharedDownloadState
  tasks : List StreamTask
  phase : Phase

inductive Event
  | frame (index : Nat) (encoded : EncodedFrameHeader) (bytes : Bytes)
  | lost (index : Nat) (status : Status)
  /-- the thread goes on; its `pwrite`, if it makes one, moves `moved` bytes at
  most -/
  | advance (index moved : Nat)
  /-- the main thread goes on -/
  | proceed

namespace Client

/-- The client before its first thread. -/
def start (options : FileDownloadOptions) (w : World) : Client :=
  let client (backend : ChecksumBackend) (phase : Phase) : Client :=
    ⟨options, backend, .new options, List.replicate options.connections .connect, phase⟩
  match resolveChecksumBackend w.crc32cHardwareAvailable options.checksumAlgorithm
      options.checksumBackend with
  | .error e => client options.checksumBackend (.returned (.error e) false)
  | .ok backend =>
      match validateFileIoConfig options.fileIo with
      | .error e => client backend (.returned (.error e) false)
      | .ok _ => client backend .streaming

def setTask (c : Client) (index : Nat) (task : StreamTask) : Client :=
  { c with tasks := c.tasks.set index task }

/-- A thread fails: it sends an ERROR frame, if there is one to send, and
ends. -/
def failTask (c : Client) (index : Nat) (e : TransferError) (w : World) : Client × World :=
  (c.setTask index (.ended (.error e.status)),
    match e.reply with
    | none => w
    | some _ => (sendFrame w).2)

/-- The SessionInit of a stream. -/
def connect (c : Client) (index : Nat) (encoded : EncodedFrameHeader) (bytes : Bytes)
    (w : World) : Client × World :=
  match readSessionInit c.options encoded bytes with
  | .error e => c.failTask index ⟨some .invalidFrame, e⟩ w
  | .ok (streamId, init) =>
      if init.chunkSize = 0 then
        c.failTask index ⟨some .invalidFrame,
          .invalidArgument (ascii "chunk_size must be greater than zero")⟩ w
      else if c.shared.streamsSeen.getD streamId false then
        c.failTask index ⟨some .invalidFrame, .invalidArgument (ascii "duplicate stream_id")⟩ w
      else
        ({ c with shared := { c.shared with
            streamsSeen := c.shared.streamsSeen.set streamId true } }.setTask index
          (.prepare streamId init), w)

/-- `prepareDownloadSession` in a thread. -/
def prepare (c : Client) (index streamId : Nat) (init : SessionInitPayload) (w : World) :
    Client × World :=
  match prepareDownloadSession c.options init c.backend c.shared w with
  | (.error e, shared, w) =>
      { c with shared := shared }.failTask index ⟨some .invalidFrame, e⟩ w
  | (.ok _, shared, w) =>
      ({ c with shared := shared }.setTask index
        (.answer streamId init (shared.session.elim [] Session.missingRanges)), w)

/-- `sendResumeResponse` in a thread. -/
def answer (c : Client) (index streamId : Nat) (init : SessionInitPayload)
    (missing : List CompletedRange) (w : World) : Client × World :=
  match resumeResponse c.options streamId init.totalSize missing with
  | .error e => c.failTask index ⟨none, e⟩ w
  | .ok _ =>
      match sendFrame w with
      | (.error e, w) => c.failTask index ⟨none, e⟩ w
      | (.ok _, w) =>
          (c.setTask index (.receive (.new c.options c.backend streamId init
            w.crc32cHardwareAvailable)), w)

/-- A frame in the loop of a thread. -/
def receive (c : Client) (index : Nat) (stream : DownloadStream) (encoded : EncodedFrameHeader)
    (bytes : Bytes) (w : World) : Client × World :=
  match (do
      let header ← decodeFrameHeader encoded
      validateFrameHeader header c.options.bufferSize
      return header : Except Status FrameHeader) with
  | .error e => c.failTask index ⟨none, e⟩ w
  | .ok header =>
      if header.type = .fin then
        if stream.chunkActive then
          c.failTask index ⟨some .invalidFrame,
            .invalidArgument (ascii "FIN received before ChunkComplete")⟩ w
        else
          match sendFrame w with
          | (status, w) => (c.setTask index (.ended status), w)
      else if header.type = .data then
        match takeData c.options c.backend stream header bytes w.crc32cHardwareAvailable with
        | .error e => c.failTask index e w
        | .ok (stream, jobs) => (c.setTask index (.write stream jobs none), w)
      else if header.type = .chunkComplete then
        match takeComplete c.options stream bytes with
        | .error e => c.failTask index e w
        | .ok payload =>
            (c.setTask index (.write { stream with writer := stream.writer.flush.2 }
              stream.writer.flush.1 (some payload)), w)
      else
        c.failTask index ⟨some .invalidFrame,
          .invalidArgument (ascii "unexpected frame type from sender")⟩ w

/-- One `pwrite` of a thread, which moves `moved` bytes at most. -/
def writeSome (c : Client) (index moved : Nat) (stream : DownloadStream) (job : WriteJob)
    (jobs : List WriteJob) (complete : Option ChunkCompletePayload) (tempPath : Path)
    (w : World) : Client × World :=
  match w.writeAtAll tempPath job.offset (job.data.take moved) with
  | (.error e, w) => c.failTask index ⟨some .writeFailed, e⟩ w
  | (.ok _, w) =>
      (c.setTask index (.write stream
        (if moved < job.data.length then ⟨job.offset + moved, job.data.drop moved⟩ :: jobs
          else jobs) complete), w)

/-- The comparison and the record after a chunk's last write. -/
def record (c : Client) (index : Nat) (stream : DownloadStream)
    (payload : ChunkCompletePayload) (s : DownloadSession) (w : World) : Client × World :=
  match recordComplete stream payload s w with
  | (.error e, s, w) =>
      { c with shared := { c.shared with session := some s } }.failTask index e w
  | (.ok stream, s, w) =>
      ({ c with shared := { c.shared with session := some s } }.setTask index
        (.receive stream), w)

/-- A thread goes on. -/
def advance (c : Client) (index moved : Nat) (w : World) : Client × World :=
  match c.tasks[index]?, c.shared.session with
  | some (.prepare streamId init), _ => c.prepare index streamId init w
  | some (.answer streamId init missing), _ => c.answer index streamId init missing w
  | some (.write stream (job :: jobs) complete), some s =>
      c.writeSome index moved stream job jobs complete s.manifest.tempPath w
  | some (.write stream [] none), _ => (c.setTask index (.receive stream), w)
  | some (.write stream [] (some payload)), some s => c.record index stream payload s w
  | _, _ => (c, w)

/-- The frame a thread reads is whole. -/
def frameWhole (encoded : EncodedFrameHeader) (bytes : Bytes) : Bool :=
  match decodeFrameHeader encoded with
  | .error _ => true
  | .ok header => bytes.length = header.payloadSize.toNat

/-- The main thread returns with a failed step's status, or goes on. -/
def conclude (c : Client) (next : Phase) (afterRename : Bool)
    (r : CommitResult DownloadPaths) : Client × World :=
  match r with
  | (.error e, s, w) =>
      ({ c with
        shared := { c.shared with session := some s }
        phase := .returned (.error e.status) afterRename }, w)
  | (.ok _, s, w) =>
      ({ c with shared := { c.shared with session := some s }, phase := next }, w)

/-- The main thread returns without a session to mark failed. -/
def giveUp (c : Client) (e : Status) (w : World) : Client × World :=
  ({ c with phase := .returned (.error e) false }, w)

/-- The main thread after all threads have ended. -/
def join (c : Client) (w : World) : Client × World :=
  match c.tasks.findSome? StreamTask.failure?, c.shared.session with
  | some e, some s =>
      if c.shared.sessionReady then
        c.conclude .streaming false (s.fail downloadSessionFormat .internalError e w)
      else c.giveUp e w
  | some e, none => c.giveUp e w
  | none, some s =>
      if c.shared.sizeKnown ∧ c.shared.sessionReady then
        c.conclude .checked false (checkReceived c.options c.shared.knownTotalSize.toNat s w)
      else c.giveUp (.runtimeError (ascii "download size was not negotiated")) w
  | none, none => c.giveUp (.runtimeError (ascii "download size was not negotiated")) w

/-- The rename of the commit. -/
def renameTemp (options : FileDownloadOptions) (s : DownloadSession) (w : World) :
    CommitResult DownloadPaths :=
  match w.renamePath s.manifest.tempPath options.path with
  | (.error e, w) => s.fail downloadSessionFormat .writeFailed e w
  | (.ok _, w) => (.ok (), s, w)

/-- One step. -/
def step (c : Client) (event : Event) (w : World) : Client × World :=
  match c.phase, event with
  | .streaming, .frame index encoded bytes =>
      if frameWhole encoded bytes then
        match c.tasks[index]? with
        | some .connect => c.connect index encoded bytes w
        | some (.receive stream) => c.receive index stream encoded bytes w
        | _ => (c, w)
      else (c, w)
  | .streaming, .lost index status =>
      match c.tasks[index]? with
      | some .connect => c.failTask index ⟨some .invalidFrame, status⟩ w
      | some (.receive _) => c.failTask index ⟨none, status⟩ w
      | _ => (c, w)
  | .streaming, .advance index moved => c.advance index moved w
  | .streaming, .proceed => if c.tasks.all StreamTask.hasEnded then c.join w else (c, w)
  | .checked, .proceed =>
      match c.shared.session with
      | none => (c, w)
      | some s => c.conclude .freed false (freeOutput c.options s w)
  | .freed, .proceed =>
      match c.shared.session with
      | none => (c, w)
      | some s => c.conclude .renamed false (renameTemp c.options s w)
  | .renamed, .proceed =>
      match c.shared.session with
      | none => (c, w)
      | some s =>
          c.conclude (.returned (.ok ()) true) true
            (sealOutput downloadSessionFormat c.options.toCommitOptions s w)
  | _, _ => (c, w)

end Client

/-! ### What opening a session does -/

section Opening

variable {options : FileDownloadOptions} {request : SessionRequest DownloadPaths}
  {w w' : World} {status : Except Status Unit} {after : Option DownloadSession}

theorem createTemp_quiet (options : FileDownloadOptions) (totalSize : Nat) (s : DownloadSession)
    (w : World) :
    ∃ status s' w', createTemp options totalSize s w = (status, some s', w') ∧
      Session.QuietCalls downloadSessionFormat {s.manifest.tempPath} s w s' w' := by
  have hopen : Session.QuietCalls downloadSessionFormat {s.manifest.tempPath} s w s _ :=
    .framed (w.openReadWriteExclusive_frame s.manifest.tempPath)
  rw [createTemp]
  rcases h₁ : w.openReadWriteExclusive s.manifest.tempPath with ⟨e | _, w₁⟩
  · rw [h₁] at hopen
    exact ⟨_, _, _, rfl, hopen⟩
  · rw [h₁] at hopen
    have hallocate : World.Frame {s.manifest.tempPath} w₁
        (if totalSize > 0 ∧ options.preallocateMode = .full then
          w₁.preallocate s.manifest.tempPath totalSize else (.ok (), w₁)).2 := by
      split
      · exact w₁.preallocate_frame s.manifest.tempPath totalSize
      · exact (World.Frame.refl w₁).mono (Set.empty_subset _)
    simp only
    rcases h₂ : (if totalSize > 0 ∧ options.preallocateMode = .full then
      w₁.preallocate s.manifest.tempPath totalSize else (.ok (), w₁)) with ⟨e | _, w₂⟩
    · rw [h₂] at hallocate
      exact ⟨_, _, _, rfl, hopen.trans (.framed hallocate)⟩
    · rw [h₂] at hallocate
      have hresize := w₂.resize_frame s.manifest.tempPath totalSize
      simp only
      rcases h₃ : w₂.resize s.manifest.tempPath totalSize with ⟨e | _, w₃⟩
      · rw [h₃] at hresize
        exact ⟨_, _, _, rfl, hopen.trans (.framed (hallocate.trans hresize))⟩
      · rw [h₃] at hresize
        have hadvice := (w₃.applyFileIoAdvice_frame options.fileIo.advice totalSize).mono
          (Set.empty_subset {s.manifest.tempPath})
        simp only
        rcases h₄ : w₃.applyFileIoAdvice options.fileIo.advice totalSize with ⟨e | _, w₄⟩
        · rw [h₄] at hadvice
          exact ⟨_, _, _, rfl, hopen.trans (.framed ((hallocate.trans hresize).trans hadvice))⟩
        · rw [h₄] at hadvice
          exact ⟨_, _, _, rfl, (hopen.trans
            (.framed ((hallocate.trans hresize).trans hadvice))).trans (.op .save rfl)⟩

theorem checkOutputFree_frame (options : FileDownloadOptions) (w : World) :
    World.Frame ∅ w (checkOutputFree options w).2 := by
  have houtput := w.pathExists_frame options.path
  rw [checkOutputFree]
  rcases h₁ : w.pathExists options.path with ⟨e | outputExists, w₁⟩
  · rw [h₁] at houtput
    exact houtput
  · rw [h₁] at houtput
    have hmanifest := w₁.pathExists_frame (downloadManifestPathForOutput options.path)
    simp only
    split
    · exact houtput
    · split
      · exact houtput
      · rcases h₂ : w₁.pathExists (downloadManifestPathForOutput options.path)
          with ⟨e | manifestExists, w₂⟩
        · rw [h₂] at hmanifest
          exact houtput.trans hmanifest
        · rw [h₂] at hmanifest
          simp only
          split
          · exact houtput.trans hmanifest
          · exact houtput.trans hmanifest

/-- How opening ends: without a session, and nothing has been changed; or with
one that has been created or resumed and then used. -/
inductive SessionOpened (options : FileDownloadOptions) (request : SessionRequest DownloadPaths)
    (w : World) : Option DownloadSession → World → Prop
  | none {w' : World} (h : World.Frame ∅ w w') : SessionOpened options request w none w'
  | created {s₀ s : DownloadSession} {v w₀ w' : World} (hnew : options.resume = false)
      (hcheck : checkOutputFree options w = (.ok (), v))
      (hcreate : DownloadSession.createNew request v = (.ok s₀, w₀))
      (h : Session.QuietCalls downloadSessionFormat {s₀.manifest.tempPath} s₀
        (removeOldFiles options s₀.manifest.tempPath w₀) s w') :
      SessionOpened options request w (some s) w'
  | resumed {s₀ s : DownloadSession} {w₀ w' : World}
      (hresume : DownloadSession.resume request w = (.ok s₀, w₀))
      (h : Session.QuietCalls downloadSessionFormat ∅ s₀ w₀ s w') :
      SessionOpened options request w (some s) w'

theorem createSession_opened (hnew : options.resume = false)
    (h : createSession options request w = (status, after, w')) :
    SessionOpened options request w after w' := by
  have hcheck := checkOutputFree_frame options w
  rw [createSession] at h
  rcases h₁ : checkOutputFree options w with ⟨e | _, w₁⟩
  · rw [h₁] at hcheck
    simp only [h₁, Prod.mk.injEq] at h
    obtain ⟨-, rfl, rfl⟩ := h
    exact .none hcheck
  · rw [h₁] at hcheck
    simp only [h₁] at h
    rcases h₂ : DownloadSession.createNew request w₁ with ⟨e | s₀, w₂⟩
    · simp only [h₂, Prod.mk.injEq] at h
      obtain ⟨-, rfl, rfl⟩ := h
      exact .none (hcheck.trans (DownloadSession.createNew_frame h₂))
    · simp only [h₂] at h
      obtain ⟨status', s', w₃, htemp, hquiet⟩ := createTemp_quiet options
        request.totalSize.toNat s₀ (removeOldFiles options s₀.manifest.tempPath w₂)
      rw [htemp] at h
      obtain ⟨-, rfl, rfl⟩ := h
      exact .created hnew h₁ h₂ hquiet

theorem resumeSession_opened (h : resumeSession options request w = (status, after, w')) :
    SessionOpened options request w after w' := by
  rw [resumeSession] at h
  rcases h₁ : DownloadSession.resume request w with ⟨e | s₀, w₁⟩
  · simp only [h₁, Prod.mk.injEq] at h
    obtain ⟨-, rfl, rfl⟩ := h
    exact .none (DownloadSession.resume_frame h₁)
  · simp only [h₁] at h
    have hopen : Session.QuietCalls downloadSessionFormat ∅ s₀ w₁ s₀ _ :=
      .framed (w₁.openExisting_frame (ascii "open read-write") s₀.manifest.tempPath)
    change Session.QuietCalls downloadSessionFormat ∅ s₀ w₁ s₀
      (w₁.openReadWrite s₀.manifest.tempPath).2 at hopen
    rcases h₂ : w₁.openReadWrite s₀.manifest.tempPath with ⟨e | _, w₂⟩
    · rw [h₂] at hopen
      simp only [h₂, Prod.mk.injEq] at h
      obtain ⟨-, rfl, rfl⟩ := h
      exact .resumed h₁ hopen
    · rw [h₂] at hopen
      simp only [h₂] at h
      have hadvice := w₂.applyFileIoAdvice_frame options.fileIo.advice request.totalSize.toNat
      rcases h₃ : w₂.applyFileIoAdvice options.fileIo.advice request.totalSize.toNat
        with ⟨e | _, w₃⟩
      · rw [h₃] at hadvice
        simp only [h₃, Prod.mk.injEq] at h
        obtain ⟨-, rfl, rfl⟩ := h
        exact .resumed h₁ (hopen.trans (.framed hadvice))
      · rw [h₃] at hadvice
        simp only [h₃, Prod.mk.injEq] at h
        obtain ⟨-, rfl, rfl⟩ := h
        exact .resumed h₁ ((hopen.trans (.framed hadvice)).trans
          (.op (.verifyTempChunks s₀.manifest.tempPath) rfl))

/-- A session that has been opened is sound. -/
theorem SessionOpened.sound {s : DownloadSession}
    (h : SessionOpened options request w (some s) w') :
    s.Sound downloadSessionFormat w.crc32cHardwareAvailable request := by
  cases h with
  | created hnew hcheck hcreate h =>
      have hframe := checkOutputFree_frame options w
      rw [hcheck] at hframe
      have hopens : DownloadSession.Opens w.crc32cHardwareAvailable request _ :=
        ⟨_, _, hframe.hardware, Or.inl hcreate⟩
      exact h.calls.sound hopens.sound.1
  | resumed hresume h =>
      have hopens : DownloadSession.Opens w.crc32cHardwareAvailable request _ :=
        ⟨w, _, rfl, Or.inr hresume⟩
      exact h.calls.sound hopens.sound.1

theorem prepareDownloadSession_cases (options : FileDownloadOptions) (init : SessionInitPayload)
    (backend : ChecksumBackend) (state : SharedDownloadState) (w : World) :
    ((prepareDownloadSession options init backend state w).2.1 = state ∧
      (prepareDownloadSession options init backend state w).2.2 = w) ∨
    (state.sessionReady = false ∧ ∃ after,
      SessionOpened options (sessionRequest options init backend) w after
        (prepareDownloadSession options init backend state w).2.2 ∧
      (prepareDownloadSession options init backend state w).2.1.session =
        (after <|> state.session)) := by
  rw [prepareDownloadSession]
  split
  · exact Or.inl ⟨rfl, rfl⟩
  · rename_i hready
    refine Or.inr ⟨eq_false_of_ne_true hready, ?_⟩
    dsimp only
    rcases h : (if options.resume then resumeSession options (sessionRequest options init backend) w
      else createSession options (sessionRequest options init backend) w) with ⟨e | _, after, w'⟩
    all_goals
      refine ⟨after, ?_, rfl⟩
      split at h
      · exact resumeSession_opened h
      · rename_i hresume
        exact createSession_opened (eq_false_of_ne_true hresume) h

end Opening

/-! ### What a step does to the session -/

/-- What a step of the threads does to the session and the files. -/
inductive SessionStep (c : Client) (event : Event) (w : World) :
    Option DownloadSession → World → Prop
  | idle {w' : World} (h : World.Frame ∅ w w') : SessionStep c event w c.shared.session w'
  | opened {index moved streamId : Nat} {init : SessionInitPayload}
      {after : Option DownloadSession} {w₁ w' : World} (hevent : event = .advance index moved)
      (htask : c.tasks[index]? = some (.prepare streamId init))
      (hready : c.shared.sessionReady = false)
      (hopened : SessionOpened c.options (sessionRequest c.options init c.backend) w after w₁)
      (hframe : World.Frame ∅ w₁ w') : SessionStep c event w (after <|> c.shared.session) w'
  | wrote {s : DownloadSession} {w' : World} (hs : c.shared.session = some s)
      (h : World.Frame {s.manifest.tempPath} w w') : SessionStep c event w (some s) w'
  | recorded {index moved : Nat} {stream : DownloadStream} {payload : ChunkCompletePayload}
      {status : Except Status Unit} {s s' : DownloadSession} {w₁ w' : World}
      (hevent : event = .advance index moved)
      (htask : c.tasks[index]? = some (.write stream [] (some payload)))
      (hs : c.shared.session = some s)
      (hchecksum : stream.checksumComputer.finalize = payload.checksum)
      (hrecord : s.recordVerifiedChunk downloadSessionFormat payload.chunkId.toNat
        payload.offset.toNat payload.length.toNat payload.checksum w = (status, s', w₁))
      (hframe : World.Frame ∅ w₁ w') : SessionStep c event w (some s') w'

theorem recordVerifiedChunk_calls {S : Set Path} {payload : ChunkCompletePayload}
    {s s' : DownloadSession} {w w' : World} {status : Except Status Unit}
    (h : s.recordVerifiedChunk downloadSessionFormat payload.chunkId.toNat
      payload.offset.toNat payload.length.toNat payload.checksum w = (status, s', w')) :
    Session.Calls downloadSessionFormat S s w s' w' := by
  have hcalls := @Session.Calls.op _ downloadSessionFormat S s w
    (.recordVerifiedChunk payload.chunkId payload.offset payload.length payload.checksum)
  rwa [show SessionOp.run downloadSessionFormat (.recordVerifiedChunk payload.chunkId
    payload.offset payload.length payload.checksum) s w = _ from h] at hcalls

theorem SessionStep.andFrame {c : Client} {event : Event} {w w₁ w' : World}
    {after : Option DownloadSession} (h : SessionStep c event w after w₁)
    (hframe : World.Frame ∅ w₁ w') : SessionStep c event w after w' := by
  cases h with
  | idle h => exact .idle (h.trans hframe)
  | opened hevent htask hready hopened h =>
      exact .opened hevent htask hready hopened (h.trans hframe)
  | wrote hs h => exact .wrote hs (h.trans (hframe.mono (Set.empty_subset _)))
  | recorded hevent htask hs hchecksum hrecord h =>
      exact .recorded hevent htask hs hchecksum hrecord (h.trans hframe)

namespace Client

theorem failTask_frame (c : Client) (index : Nat) (e : TransferError) (w : World) :
    World.Frame ∅ w (c.failTask index e w).2 := by
  rw [failTask]
  cases e.reply with
  | none => exact World.Frame.refl w
  | some reply => exact sendFrame_frame w

/-- A step of the threads leaves the phase to the main thread. -/
structure ThreadStep (c : Client) (event : Event) (w : World) (r : Client × World) : Prop where
  session : SessionStep c event w r.1.shared.session r.2
  options : r.1.options = c.options
  backend : r.1.backend = c.backend
  phase : r.1.phase = c.phase

theorem ThreadStep.refl (c : Client) (event : Event) (w : World) :
    c.ThreadStep event w (c, w) :=
  ⟨.idle (World.Frame.refl w), rfl, rfl, rfl⟩

theorem failTask_step {c c₁ : Client} {event : Event} {w w₁ : World}
    (h : c.ThreadStep event w (c₁, w₁)) (index : Nat) (e : TransferError) :
    c.ThreadStep event w (c₁.failTask index e w₁) := by
  have hframe := c₁.failTask_frame index e w₁
  exact ⟨h.session.andFrame hframe, h.options, h.backend, h.phase⟩

theorem connect_step (c : Client) (event : Event) (index : Nat) (encoded : EncodedFrameHeader)
    (bytes : Bytes) (w : World) : c.ThreadStep event w (c.connect index encoded bytes w) := by
  have hfail := fun e => failTask_step (.refl c event w) index e
  rw [connect]
  cases readSessionInit c.options encoded bytes with
  | error e => exact hfail _
  | ok result =>
      simp only
      split
      · exact hfail _
      · split
        · exact hfail _
        · exact ⟨.idle (World.Frame.refl w), rfl, rfl, rfl⟩

theorem prepare_step {c : Client} {index moved streamId : Nat} {init : SessionInitPayload}
    (htask : c.tasks[index]? = some (.prepare streamId init)) (w : World) :
    c.ThreadStep (.advance index moved) w (c.prepare index streamId init w) := by
  have hcases := prepareDownloadSession_cases c.options init c.backend c.shared w
  rw [prepare]
  have hstep : ∀ shared w', (shared = c.shared ∧ w' = w ∨ c.shared.sessionReady = false ∧
      ∃ after, SessionOpened c.options (sessionRequest c.options init c.backend) w after w' ∧
        shared.session = (after <|> c.shared.session)) →
      ∀ tasks, c.ThreadStep (.advance index moved) w
        ({ c with shared := shared, tasks := tasks }, w') := by
    rintro shared w' (⟨rfl, rfl⟩ | ⟨hready, after, hopened, hafter⟩) tasks
    · exact ⟨.idle (World.Frame.refl w'), rfl, rfl, rfl⟩
    · refine ⟨?_, rfl, rfl, rfl⟩
      show SessionStep c _ w shared.session w'
      rw [hafter]
      exact .opened rfl htask hready hopened (World.Frame.refl w')
  rcases h : prepareDownloadSession c.options init c.backend c.shared w
    with ⟨e | _, shared, w'⟩
  · rw [h] at hcases
    exact failTask_step (hstep shared w' hcases c.tasks) index _
  · rw [h] at hcases
    exact hstep shared w' hcases _

theorem answer_step (c : Client) (event : Event) (index streamId : Nat)
    (init : SessionInitPayload) (missing : List CompletedRange) (w : World) :
    c.ThreadStep event w (c.answer index streamId init missing w) := by
  rw [answer]
  cases resumeResponse c.options streamId init.totalSize missing with
  | error e => exact failTask_step (.refl c event w) index _
  | ok frame =>
      have hsend := sendFrame_frame w
      simp only
      rcases h : sendFrame w with ⟨e | _, w'⟩
      · rw [h] at hsend
        exact failTask_step ⟨.idle hsend, rfl, rfl, rfl⟩ index _
      · rw [h] at hsend
        exact ⟨.idle hsend, rfl, rfl, rfl⟩

theorem receive_step (c : Client) (event : Event) (index : Nat) (stream : DownloadStream)
    (encoded : EncodedFrameHeader) (bytes : Bytes) (w : World) :
    c.ThreadStep event w (c.receive index stream encoded bytes w) := by
  have hfail := fun e => failTask_step (.refl c event w) index e
  have htask := fun task => (⟨.idle (World.Frame.refl w), rfl, rfl, rfl⟩ :
    c.ThreadStep event w (c.setTask index task, w))
  rw [receive]
  split
  · exact hfail _
  · rename_i header _
    split
    · split
      · exact hfail _
      · have hsend := sendFrame_frame w
        exact ⟨.idle hsend, rfl, rfl, rfl⟩
    · split
      · cases takeData c.options c.backend stream header bytes w.crc32cHardwareAvailable with
        | error e => exact hfail e
        | ok taken => exact htask _
      · split
        · cases takeComplete c.options stream bytes with
          | error e => exact hfail e
          | ok payload => exact htask _
        · exact hfail _

theorem writeSome_step {c : Client} {s : DownloadSession} (hs : c.shared.session = some s)
    (event : Event) (index moved : Nat) (stream : DownloadStream) (job : WriteJob)
    (jobs : List WriteJob) (complete : Option ChunkCompletePayload) (w : World) :
    c.ThreadStep event w
      (c.writeSome index moved stream job jobs complete s.manifest.tempPath w) := by
  have hwrite := w.writeAtAll_frame s.manifest.tempPath job.offset (job.data.take moved)
  have hstep : ∀ tasks, c.ThreadStep event w ({ c with tasks := tasks },
      (w.writeAtAll s.manifest.tempPath job.offset (job.data.take moved)).2) := fun tasks => by
    refine ⟨?_, rfl, rfl, rfl⟩
    show SessionStep c event w c.shared.session _
    rw [hs]
    exact .wrote hs hwrite
  rw [writeSome]
  rcases h : w.writeAtAll s.manifest.tempPath job.offset (job.data.take moved) with ⟨e | _, w'⟩
  · rw [h] at hstep
    exact failTask_step (hstep c.tasks) index _
  · rw [h] at hstep
    exact hstep _

/-- How a chunk is recorded: not at all, or by the session. -/
inductive RecordEnds (stream : DownloadStream) (payload : ChunkCompletePayload)
    (s : DownloadSession) (w : World) :
    Except TransferError DownloadStream × DownloadSession × World → Prop
  | refused (e : TransferError) : RecordEnds stream payload s w (.error e, s, w)
  | recorded {status : Except Status Unit} {s' : DownloadSession} {w' : World}
      {result : Except TransferError DownloadStream}
      (hchecksum : stream.checksumComputer.finalize = payload.checksum)
      (hrecord : s.recordVerifiedChunk downloadSessionFormat payload.chunkId.toNat
        payload.offset.toNat payload.length.toNat payload.checksum w = (status, s', w'))
      (hresult : (∃ e e', status = .error e ∧ result = .error e') ∨
        (status = .ok () ∧ result = .ok { stream with chunkActive := false })) :
      RecordEnds stream payload s w (result, s', w')

theorem recordComplete_ends (stream : DownloadStream) (payload : ChunkCompletePayload)
    (s : DownloadSession) (w : World) :
    RecordEnds stream payload s w (recordComplete stream payload s w) := by
  rw [recordComplete]
  split
  · exact .refused _
  · rename_i hchecksum
    rcases hrecord : s.recordVerifiedChunk downloadSessionFormat payload.chunkId.toNat
      payload.offset.toNat payload.length.toNat payload.checksum w with ⟨e | _, s', w'⟩
    · exact .recorded (not_not.mp hchecksum) hrecord (Or.inl ⟨_, _, rfl, rfl⟩)
    · exact .recorded (not_not.mp hchecksum) hrecord (Or.inr ⟨rfl, rfl⟩)

theorem record_step {c : Client} {s : DownloadSession} (hs : c.shared.session = some s)
    {index moved : Nat} {stream : DownloadStream} {payload : ChunkCompletePayload}
    (htask : c.tasks[index]? = some (.write stream [] (some payload))) (w : World) :
    c.ThreadStep (.advance index moved) w (c.record index stream payload s w) := by
  have hends := recordComplete_ends stream payload s w
  have hstep : ∀ result s' w', RecordEnds stream payload s w (result, s', w') → ∀ tasks,
      c.ThreadStep (.advance index moved) w
        ({ c with shared := { c.shared with session := some s' }, tasks := tasks }, w') := by
    intro result s' w' hends tasks
    refine ⟨?_, rfl, rfl, rfl⟩
    cases hends with
    | refused e =>
        show SessionStep c _ w (some s) w
        rw [← hs]
        exact .idle (World.Frame.refl w)
    | recorded hchecksum hrecord hresult =>
        exact .recorded rfl htask hs hchecksum hrecord (World.Frame.refl w')
  rw [record]
  rcases h : recordComplete stream payload s w with ⟨e | stream', s', w'⟩
  · rw [h] at hends
    exact failTask_step (hstep _ _ _ hends c.tasks) index _
  · rw [h] at hends
    exact hstep _ _ _ hends _

theorem advance_step (c : Client) (index moved : Nat) (w : World) :
    c.ThreadStep (.advance index moved) w (c.advance index moved w) := by
  rw [advance]
  split
  · rename_i htask
    exact prepare_step htask w
  · exact c.answer_step _ index _ _ _ w
  · rename_i hs
    exact writeSome_step hs _ index moved _ _ _ _ w
  · exact ⟨.idle (World.Frame.refl w), rfl, rfl, rfl⟩
  · rename_i htask hs
    exact record_step hs htask w
  · exact .refl c _ w

/-- How a client starts: on its streams, or by returning at once. -/
theorem start_eq (options : FileDownloadOptions) (w : World) :
    ∃ backend phase, start options w = ⟨options, backend, .new options,
      List.replicate options.connections .connect, phase⟩ ∧
      (phase = .streaming ∨ ∃ e, phase = .returned (.error e) false) := by
  rw [start]
  cases resolveChecksumBackend w.crc32cHardwareAvailable options.checksumAlgorithm
      options.checksumBackend with
  | error e => exact ⟨_, _, rfl, Or.inr ⟨e, rfl⟩⟩
  | ok backend =>
      cases validateFileIoConfig options.fileIo with
      | error e => exact ⟨_, _, rfl, Or.inr ⟨e, rfl⟩⟩
      | ok _ => exact ⟨_, _, rfl, Or.inl rfl⟩

/-- Every step of a thread. -/
theorem step_thread {c : Client} {event : Event} (hphase : c.phase = .streaming)
    (hevent : event ≠ .proceed) (w : World) : c.ThreadStep event w (c.step event w) := by
  unfold step
  rw [hphase]
  cases event with
  | frame index encoded bytes =>
      dsimp only
      split
      · split
        · exact c.connect_step _ index encoded bytes w
        · exact c.receive_step _ index _ encoded bytes w
        · exact .refl c _ w
      · exact .refl c _ w
  | lost index status =>
      dsimp only
      split
      · exact failTask_step (.refl c _ w) _ _
      · exact failTask_step (.refl c _ w) _ _
      · exact .refl c _ w
  | advance index moved => exact c.advance_step index moved w
  | proceed => exact absurd rfl hevent

/-- After the threads only the main thread goes on. -/
theorem step_settled {c : Client} {event : Event} (hphase : c.phase ≠ .streaming)
    (hevent : event ≠ .proceed) (w : World) : c.step event w = (c, w) := by
  unfold step
  split
  · exact absurd ‹c.phase = .streaming› hphase
  · exact absurd ‹c.phase = .streaming› hphase
  · exact absurd ‹c.phase = .streaming› hphase
  · exact absurd rfl hevent
  · exact absurd rfl hevent
  · exact absurd rfl hevent
  · exact absurd rfl hevent
  · rfl

/-- The main thread waits for all threads. -/
theorem step_join {c : Client} (hphase : c.phase = .streaming) (w : World) :
    c.step .proceed w = if c.tasks.all StreamTask.hasEnded then c.join w else (c, w) := by
  unfold step
  rw [hphase]

end Client

end FileDownloadClient

end GridFlux
