/-
GridFlux/DownloadSteps.lean

How the steps of a download end.

A SessionInit that is accepted agrees with the session or opens it, and a
session that is resumed finds its records in the temp file
(`prepareDownloadSession_ok`).  How a step of a thread can end is said once
(`StreamEnds`); what later modules know about the threads is derived from that.
-/
import GridFlux.OutputKept
import GridFlux.RecordedChunks

namespace GridFlux

open HalfOpen TextCodec Transition
open FileTransferServer (sendFrame sendFrame_frame)

namespace FileDownloadClient

/-! ### Opening -/

section Opening

variable {options : FileDownloadOptions} {init : SessionInitPayload} {backend : ChecksumBackend}
  {s s' : DownloadSession} {w w' : World} {after : Option DownloadSession}

/-- A session that keeps to its own files leaves the temp file alone. -/
theorem SessionOf.temp_kept (h : SessionOf options s)
    (hcalls : Session.Calls downloadSessionFormat ∅ s w s' w') :
    w'.files s.manifest.tempPath = w.files s.manifest.tempPath := by
  have hapart := download_filesApart w options.path options.transferId
  apply hcalls.frame.files
  rw [Set.empty_union, Session.diskFiles, h.manifest, h.temp]
  rintro (h | h)
  · exact hapart.temp_manifest h
  · exact hapart.temp_manifestTemp h

/-- A session that has been opened with these options. -/
def SessionSound (options : FileDownloadOptions) (s : DownloadSession) : Prop :=
  ∃ hardware init backend,
    s.Sound downloadSessionFormat hardware (sessionRequest options init backend)

theorem SessionSound.sessionOf (h : SessionSound options s) : SessionOf options s := by
  obtain ⟨hardware, init, backend, hs⟩ := h
  exact ⟨hs.opened.tempPath, hs.opened.manifestPath⟩

/-- Calls keep it, and the size. -/
theorem SessionSound.calls {S : Set Path} (h : SessionSound options s)
    (hcalls : Session.Calls downloadSessionFormat S s w s' w') :
    SessionSound options s' ∧ s'.manifest.totalSize = s.manifest.totalSize := by
  obtain ⟨hardware, init, backend, hs⟩ := h
  have hs' := hcalls.sound hs
  exact ⟨⟨hardware, init, backend, hs'⟩, hs'.opened.totalSize.trans hs.opened.totalSize.symm⟩

/-- **A session that is resumed** finds its records in the temp file: those
that are not there have been dropped. -/
theorem resumeSession_ok (hcrc : options.checksumAlgorithm = .crc32c)
    (h : resumeSession options (sessionRequest options init backend) w = (.ok (), after, w')) :
    ∃ s content, after = some s ∧ w'.files s.manifest.tempPath = some content ∧
      ∀ record ∈ s.records, record.Intact content := by
  rw [resumeSession] at h
  rcases hresume : DownloadSession.resume (sessionRequest options init backend) w with ⟨e | s₀, w₁⟩
  · simp [hresume] at h
  · have hopens : DownloadSession.Opens w.crc32cHardwareAvailable
        (sessionRequest options init backend) s₀ := ⟨w, w₁, rfl, Or.inr hresume⟩
    obtain ⟨hs, -⟩ := hopens.sound
    have hof : SessionOf options s₀ := ⟨hs.opened.tempPath, hs.opened.manifestPath⟩
    have halgorithm : s₀.manifest.checksumAlgorithm = .crc32c :=
      hs.opened.checksumAlgorithm.trans hcrc
    simp only [hresume] at h
    rcases hopen : w₁.openReadWrite s₀.manifest.tempPath with ⟨e | _, w₂⟩
    · simp [hopen] at h
    · have hsome : (w₂.files s₀.manifest.tempPath).isSome = true := World.openExisting_ok hopen
      obtain ⟨content, hcontent⟩ := Option.isSome_iff_exists.mp hsome
      have hadvice := w₂.applyFileIoAdvice_frame options.fileIo.advice
        (sessionRequest options init backend).totalSize.toNat
      simp only [hopen] at h
      rcases hresult : w₂.applyFileIoAdvice options.fileIo.advice
        (sessionRequest options init backend).totalSize.toNat with ⟨e | _, w₃⟩
      · simp [hresult] at h
      · rw [hresult] at hadvice
        simp only [hresult] at h
        have hfile : w₃.files s₀.manifest.tempPath = some content :=
          (hadvice.files _ (Set.notMem_empty _)).trans hcontent
        have hintact : ∀ record ∈ (s₀.verifyTempChunks downloadSessionFormat
            s₀.manifest.tempPath w₃).2.1.records, record.Intact content :=
          hs.ok.verifyTempChunks_intact halgorithm
            (fun r hr => (hs.storable.algorithms r hr).trans halgorithm) hfile
        have hcalls := @Session.Calls.op _ downloadSessionFormat ∅ s₀ w₃
          (.verifyTempChunks s₀.manifest.tempPath)
        change Session.Calls downloadSessionFormat ∅ s₀ w₃
          (s₀.verifyTempChunks downloadSessionFormat s₀.manifest.tempPath w₃).2.1
          (s₀.verifyTempChunks downloadSessionFormat s₀.manifest.tempPath w₃).2.2 at hcalls
        rcases hverify : s₀.verifyTempChunks downloadSessionFormat s₀.manifest.tempPath w₃
          with ⟨status, s, w₄⟩
        rw [hverify] at hintact hcalls
        simp only [hverify, Prod.mk.injEq] at h
        obtain ⟨-, rfl, rfl⟩ := h
        refine ⟨s, content, rfl, ?_, hintact⟩
        rw [hcalls.tempPath, hof.temp_kept hcalls]
        exact hfile

/-- A new temp file is there. -/
theorem createTemp_ok {totalSize : Nat} (h : createTemp options totalSize s w = (.ok (), after, w'))
    (hof : SessionOf options s) :
    ∃ s' content, after = some s' ∧ w'.files s'.manifest.tempPath = some content ∧
      s'.records.Perm s.records := by
  rw [createTemp] at h
  rcases hopen : w.openReadWriteExclusive s.manifest.tempPath with ⟨e | _, w₁⟩
  · simp [hopen] at h
  · simp only [hopen] at h
    have hallocated : ((if totalSize > 0 ∧ options.preallocateMode = .full then
        w₁.preallocate s.manifest.tempPath totalSize else (.ok (), w₁)).2.files
          s.manifest.tempPath).isSome = true := by
      split
      · exact World.preallocate_isSome (World.openReadWriteExclusive_ok hopen) _
      · exact World.openReadWriteExclusive_ok hopen
    rcases halloc : (if totalSize > 0 ∧ options.preallocateMode = .full then
      w₁.preallocate s.manifest.tempPath totalSize else (.ok (), w₁)) with ⟨e | _, w₂⟩
    · simp [halloc] at h
    · rw [halloc] at hallocated
      simp only [halloc] at h
      have hresized := World.resize_isSome hallocated totalSize
      rcases hresize : w₂.resize s.manifest.tempPath totalSize with ⟨e | _, w₃⟩
      · simp [hresize] at h
      · rw [hresize] at hresized
        simp only [hresize] at h
        have hadvice := w₃.applyFileIoAdvice_frame options.fileIo.advice totalSize
        rcases hresult : w₃.applyFileIoAdvice options.fileIo.advice totalSize with ⟨e | _, w₄⟩
        · simp [hresult] at h
        · rw [hresult] at hadvice
          simp only [hresult] at h
          obtain ⟨content, hcontent⟩ := Option.isSome_iff_exists.mp hresized
          have hperm := s.save_records_perm downloadSessionFormat w₄
          have hcalls := @Session.Calls.op _ downloadSessionFormat ∅ s w₄ .save
          change Session.Calls downloadSessionFormat ∅ s w₄ (s.save downloadSessionFormat w₄).2.1
            (s.save downloadSessionFormat w₄).2.2 at hcalls
          rcases hsave : s.save downloadSessionFormat w₄ with ⟨status, s', w₅⟩
          rw [hsave] at hperm hcalls
          simp only [hsave, Prod.mk.injEq] at h
          obtain ⟨-, rfl, rfl⟩ := h
          refine ⟨s', content, rfl, ?_, hperm⟩
          rw [hcalls.tempPath, hof.temp_kept hcalls, hadvice.files _ (Set.notMem_empty _)]
          exact hcontent

/-- A session that is created has no records. -/
theorem createSession_ok
    (h : createSession options (sessionRequest options init backend) w = (.ok (), after, w')) :
    ∃ s content, after = some s ∧ w'.files s.manifest.tempPath = some content ∧
      s.records = [] := by
  rw [createSession] at h
  rcases hcheck : checkOutputFree options w with ⟨e | _, w₁⟩
  · simp [hcheck] at h
  · simp only [hcheck] at h
    rcases hcreate : DownloadSession.createNew (sessionRequest options init backend) w₁
      with ⟨e | s₀, w₂⟩
    · simp [hcreate] at h
    · simp only [hcreate] at h
      have hopens : DownloadSession.Opens w₁.crc32cHardwareAvailable
          (sessionRequest options init backend) s₀ := ⟨w₁, w₂, rfl, Or.inl hcreate⟩
      obtain ⟨hs, -⟩ := hopens.sound
      obtain ⟨s, content, hafter, hfile, hperm⟩ :=
        createTemp_ok h ⟨hs.opened.tempPath, hs.opened.manifestPath⟩
      obtain ⟨_, _, _, -, -, rfl⟩ := DownloadSession.createNew_ok hcreate
      exact ⟨s, content, hafter, hfile, hperm.eq_nil⟩

/-- What `prepareDownloadSession` leaves in the shared state when it opens the
session. -/
def opened (state : SharedDownloadState) (init : SessionInitPayload) (s : DownloadSession) :
    SharedDownloadState :=
  { state with
    knownTotalSize := init.totalSize
    knownChunkSize := init.chunkSize
    sourcePath := sessionSourcePath init
    sizeKnown := true
    session := some s
    sessionReady := true }

/-- **A SessionInit that is accepted** agrees with the session, or opens it. -/
theorem prepareDownloadSession_ok {state state' : SharedDownloadState}
    (hcrc : options.checksumAlgorithm = .crc32c)
    (h : prepareDownloadSession options init backend state w = (.ok (), state', w')) :
    (state.sessionReady = true ∧ state.knownTotalSize = init.totalSize ∧ state' = state ∧ w' = w) ∨
    (state.sessionReady = false ∧ ∃ s content, state' = opened state init s ∧
      SessionOpened options (sessionRequest options init backend) w (some s) w' ∧
      w'.files s.manifest.tempPath = some content ∧
      ∀ record ∈ s.records, record.Intact content) := by
  rw [prepareDownloadSession] at h
  split at h
  · rename_i hready
    simp only [Prod.mk.injEq] at h
    obtain ⟨hsame, rfl, rfl⟩ := h
    simp only [checkSameSession, bind_eq_ok, require_eq_ok] at hsame
    obtain ⟨_, htotal, -⟩ := hsame
    exact Or.inl ⟨hready, htotal, rfl, rfl⟩
  · rename_i hready
    refine Or.inr ⟨eq_false_of_ne_true hready, ?_⟩
    dsimp only at h
    rcases hopen : (if options.resume then resumeSession options (sessionRequest options init backend) w
      else createSession options (sessionRequest options init backend) w) with ⟨e | _, after, w₁⟩
    · simp [hopen] at h
    · simp only [hopen, Prod.mk.injEq, true_and] at h
      obtain ⟨rfl, rfl⟩ := h
      split at hopen
      · obtain ⟨s, content, rfl, hfile, hintact⟩ := resumeSession_ok hcrc hopen
        exact ⟨s, content, rfl, resumeSession_opened hopen, hfile, hintact⟩
      · rename_i hresume
        obtain ⟨s, content, rfl, hfile, hnil⟩ := createSession_ok hopen
        refine ⟨s, content, rfl, createSession_opened (eq_false_of_ne_true hresume) hopen, hfile, ?_⟩
        rw [hnil]
        exact fun _ hr => (List.not_mem_nil hr).elim

end Opening

/-- A step of the threads keeps the session sound, or opens a sound one. -/
theorem SessionStep.sound {c : Client} {event : Event} {w w' : World}
    {after : Option DownloadSession} (h : SessionStep c event w after w')
    (hs : ∀ s, c.shared.session = some s → SessionSound c.options s) :
    ∀ s, after = some s → SessionSound c.options s := by
  cases h with
  | idle hframe => exact hs
  | @opened index moved streamId init after w₁ _ hevent htask hready hopened hframe =>
      intro s hafter
      cases after with
      | none => exact hs s hafter
      | some s₁ =>
          obtain rfl := Option.some.inj hafter
          exact ⟨_, init, c.backend, hopened.sound⟩
  | wrote hold hframe =>
      rintro _ ⟨⟩
      exact hs _ hold
  | recorded hevent htask hold hchecksum hrecord hframe =>
      rintro _ ⟨⟩
      have hcalls := @recordVerifiedChunk_calls ∅ _ _ _ _ _ _ hrecord
      exact ((hs _ hold).calls hcalls).1

/-! ### Steps of the threads -/

/-- The stream after the bytes of a DATA frame have been taken in; `b` has begun
the chunk. -/
def DownloadStream.afterData (b : DownloadStream) (hardware : Bool) (bytes : Bytes) :
    DownloadStream :=
  { b with
    writer := (b.writer.write b.activeChunkNextOffset bytes).2
    checksumComputer := b.checksumComputer.update hardware bytes
    activeChunkNextOffset := b.activeChunkNextOffset + bytes.length }

theorem takeData_ok {options : FileDownloadOptions} {backend : ChecksumBackend}
    {stream stream' : DownloadStream} {header : FrameHeader} {bytes : Bytes} {hardware : Bool}
    {jobs : List WriteJob} (hlength : bytes.length = header.payloadSize.toNat)
    (h : takeData options backend stream header bytes hardware = .ok (stream', jobs)) :
    ∃ b, b = beginChunk options backend stream header hardware ∧
      header.totalSize = stream.init.totalSize ∧
      b.activeChunkNextOffset = header.offset.toNat ∧ stream' = b.afterData hardware bytes ∧
      jobs = (b.writer.write b.activeChunkNextOffset bytes).1 := by
  rw [takeData] at h
  split at h
  · cases h
  · rename_i hheader
    rw [not_or, not_not, not_not] at hheader
    dsimp only at h
    split at h
    · cases h
    · rename_i hcontiguous
      rw [not_or, not_not, not_not] at hcontiguous
      split at h
      · cases h
      · obtain ⟨hstream, hjobs⟩ := Prod.mk.inj (Except.ok.inj h)
        refine ⟨_, rfl, hheader.2, hcontiguous.2, ?_, ?_⟩
        · rw [← hstream, DownloadStream.afterData, hlength, hcontiguous.2]
        · rw [← hjobs, hcontiguous.2]

/-- What a CHUNK_COMPLETE frame that passes the tests says. -/
structure CompleteOk (stream : DownloadStream) (payload : ChunkCompletePayload) : Prop where
  active : stream.chunkActive = true
  offset : payload.offset.toNat = stream.activeChunkOffset
  length : payload.length.toNat = stream.activeChunkNextOffset - stream.activeChunkOffset

theorem takeComplete_ok {options : FileDownloadOptions} {stream : DownloadStream} {bytes : Bytes}
    {payload : ChunkCompletePayload} (h : takeComplete options stream bytes = .ok payload) :
    CompleteOk stream payload := by
  rw [takeComplete] at h
  cases hdecode : decodeChunkCompletePayload bytes with
  | error e => simp [hdecode] at h
  | ok payload' =>
      simp only [hdecode] at h
      split at h
      · cases h
      · rename_i hchecked
        obtain rfl := Except.ok.inj h
        simp only [not_or, not_not] at hchecked
        exact ⟨hchecked.1, hchecked.2.2.1, hchecked.2.2.2.1⟩

namespace Client

/-- Some thread has failed. -/
def Failed (c : Client) : Prop :=
  ∃ (i : Nat) (e : Status), c.tasks[i]? = some (.ended (.error e))

/-- The DATA frame that an event brings to a thread: its stream and the bytes. -/
def takes (c : Client) : Event → Option (Nat × DownloadStream × Bytes)
  | .frame index encoded bytes =>
      match c.tasks[index]?, decodeFrameHeader encoded with
      | some (.receive stream), .ok header =>
          if frameWhole encoded bytes ∧ header.type = .data then some (index, stream, bytes)
          else none
      | _, _ => none
  | _ => none

/-- How a step ends that a thread takes. -/
inductive StreamEnds (c : Client) (w : World) : Event → Client × World → Prop
  | kept {event : Event} (htakes : c.takes event = none) : StreamEnds c w event (c, w)
  | failed {event : Event} {index : Nat} {task : StreamTask} {r : Client × World} (e : Status)
      (htakes : ∀ i stream bytes, c.takes event = some (i, stream, bytes) → i = index)
      (htask : c.tasks[index]? = some task)
      (htasks : r.1.tasks = c.tasks.set index (.ended (.error e))) : StreamEnds c w event r
  | connected {index streamId : Nat} {encoded : EncodedFrameHeader} {bytes : Bytes}
      {init : SessionInitPayload} (streamsSeen : List Bool)
      (htask : c.tasks[index]? = some .connect)
      (hread : readSessionInit c.options encoded bytes = .ok (streamId, init)) :
      StreamEnds c w (.frame index encoded bytes)
        ({ c with shared := { c.shared with streamsSeen := streamsSeen } }.setTask index
          (.prepare streamId init), w)
  | prepared {index moved streamId : Nat} {init : SessionInitPayload}
      {shared : SharedDownloadState} {w' : World} (missing : List CompletedRange)
      (htask : c.tasks[index]? = some (.prepare streamId init))
      (hprepare : prepareDownloadSession c.options init c.backend c.shared w =
        (.ok (), shared, w')) :
      StreamEnds c w (.advance index moved)
        ({ c with shared := shared }.setTask index (.answer streamId init missing), w')
  | answered {index moved streamId : Nat} {init : SessionInitPayload}
      {missing : List CompletedRange} {w' : World} (hardware : Bool)
      (htask : c.tasks[index]? = some (.answer streamId init missing))
      (hframe : World.Frame ∅ w w') :
      StreamEnds c w (.advance index moved)
        (c.setTask index (.receive (.new c.options c.backend streamId init hardware)), w')
  | data {index : Nat} {encoded : EncodedFrameHeader} {bytes : Bytes} {header : FrameHeader}
      {stream b : DownloadStream} (htask : c.tasks[index]? = some (.receive stream))
      (htakes : c.takes (.frame index encoded bytes) = some (index, stream, bytes))
      (hheader : decodeFrameHeader encoded = .ok header) (htype : header.type = .data)
      (hinside : header.offset.toNat + bytes.length ≤ stream.init.totalSize.toNat)
      (hb : b = beginChunk c.options c.backend stream header w.crc32cHardwareAvailable)
      (hnext : b.activeChunkNextOffset = header.offset.toNat) :
      StreamEnds c w (.frame index encoded bytes)
        (c.setTask index (.write (b.afterData w.crc32cHardwareAvailable bytes)
          (b.writer.write b.activeChunkNextOffset bytes).1 none), w)
  | complete {index : Nat} {encoded : EncodedFrameHeader} {bytes : Bytes}
      {stream : DownloadStream} {payload : ChunkCompletePayload}
      (htask : c.tasks[index]? = some (.receive stream))
      (htakes : c.takes (.frame index encoded bytes) = none)
      (hcheck : CompleteOk stream payload) :
      StreamEnds c w (.frame index encoded bytes)
        (c.setTask index (.write { stream with writer := stream.writer.flush.2 }
          stream.writer.flush.1 (some payload)), w)
  | fin {index : Nat} {encoded : EncodedFrameHeader} {bytes : Bytes} {stream : DownloadStream}
      {w' : World} (htask : c.tasks[index]? = some (.receive stream))
      (htakes : c.takes (.frame index encoded bytes) = none)
      (hidle : stream.chunkActive = false) (hframe : World.Frame ∅ w w') :
      StreamEnds c w (.frame index encoded bytes) (c.setTask index (.ended (.ok ())), w')
  | wrote {index moved : Nat} {stream : DownloadStream} {job : WriteJob} {jobs : List WriteJob}
      {complete : Option ChunkCompletePayload} {s : DownloadSession} {w' : World}
      (htask : c.tasks[index]? = some (.write stream (job :: jobs) complete))
      (hs : c.shared.session = some s)
      (hwrite : w.writeAtAll s.manifest.tempPath job.offset (job.data.take moved) = (.ok (), w')) :
      StreamEnds c w (.advance index moved)
        (c.setTask index (.write stream
          (if moved < job.data.length then ⟨job.offset + moved, job.data.drop moved⟩ :: jobs
            else jobs) complete), w')
  | written {index moved : Nat} {stream : DownloadStream}
      (htask : c.tasks[index]? = some (.write stream [] none)) :
      StreamEnds c w (.advance index moved) (c.setTask index (.receive stream), w)
  | recorded {index moved : Nat} {stream : DownloadStream} {payload : ChunkCompletePayload}
      {s s' : DownloadSession} {w' : World}
      (htask : c.tasks[index]? = some (.write stream [] (some payload)))
      (hs : c.shared.session = some s)
      (hchecksum : stream.checksumComputer.finalize = payload.checksum)
      (hrecord : s.recordVerifiedChunk downloadSessionFormat payload.chunkId.toNat
        payload.offset.toNat payload.length.toNat payload.checksum w = (.ok (), s', w')) :
      StreamEnds c w (.advance index moved)
        ({ c with shared := { c.shared with session := some s' } }.setTask index
          (.receive { stream with chunkActive := false }), w')

variable {c : Client} {w : World}

theorem takes_frame {event : Event} {index : Nat} {stream : DownloadStream} {bytes : Bytes}
    (h : c.takes event = some (index, stream, bytes)) :
    ∃ encoded, event = .frame index encoded bytes := by
  cases event with
  | frame i encoded bytes' =>
      rw [takes] at h
      split at h
      · split at h
        · obtain ⟨rfl, -, rfl⟩ : i = index ∧ _ ∧ bytes' = bytes := by
            simpa using h
          exact ⟨encoded, rfl⟩
        · cases h
      · cases h
  | lost i status => cases h
  | advance i moved => cases h
  | proceed => cases h

theorem takes_advance {index moved : Nat} :
    ∀ i stream bytes, c.takes (.advance index moved) = some (i, stream, bytes) → i = index :=
  fun _ _ _ h => by cases h

theorem takes_own {index : Nat} {encoded : EncodedFrameHeader} {bytes' : Bytes} :
    ∀ i stream bytes, c.takes (.frame index encoded bytes') = some (i, stream, bytes) →
      i = index := by
  intro i stream bytes h
  obtain ⟨encoded', hevent⟩ := takes_frame h
  cases hevent
  rfl

theorem failTask_ends {c₁ : Client} {event : Event} {index : Nat} {task : StreamTask}
    (htakes : ∀ i stream bytes, c.takes event = some (i, stream, bytes) → i = index)
    (htask : c.tasks[index]? = some task) (htasks : c₁.tasks = c.tasks) (e : TransferError)
    (w₁ : World) : StreamEnds c w event (c₁.failTask index e w₁) := by
  apply StreamEnds.failed e.status htakes htask
  show c₁.tasks.set index _ = _
  rw [htasks]

theorem connect_ends {index : Nat} (htask : c.tasks[index]? = some .connect)
    (encoded : EncodedFrameHeader) (bytes : Bytes) :
    StreamEnds c w (.frame index encoded bytes) (c.connect index encoded bytes w) := by
  have hfail : ∀ e, StreamEnds c w (.frame index encoded bytes) (c.failTask index e w) :=
    fun e => failTask_ends takes_own htask rfl e w
  rw [connect]
  cases hread : readSessionInit c.options encoded bytes with
  | error e => exact hfail _
  | ok result =>
      dsimp only
      split
      · exact hfail _
      · split
        · exact hfail _
        · exact .connected _ htask hread

theorem prepare_ends {index moved streamId : Nat} {init : SessionInitPayload}
    (htask : c.tasks[index]? = some (.prepare streamId init)) :
    StreamEnds c w (.advance index moved) (c.prepare index streamId init w) := by
  rw [prepare]
  rcases hprepare : prepareDownloadSession c.options init c.backend c.shared w
    with ⟨e | _, shared, w'⟩
  · exact @failTask_ends c w { c with shared := shared } _ _ _ takes_advance htask rfl _ w'
  · exact .prepared _ htask hprepare

theorem answer_ends {index moved streamId : Nat} {init : SessionInitPayload}
    {missing : List CompletedRange}
    (htask : c.tasks[index]? = some (.answer streamId init missing)) :
    StreamEnds c w (.advance index moved) (c.answer index streamId init missing w) := by
  rw [answer]
  cases resumeResponse c.options streamId init.totalSize missing with
  | error e => exact failTask_ends takes_advance htask rfl _ w
  | ok frame =>
      have hsend := sendFrame_frame w
      dsimp only
      rcases h : sendFrame w with ⟨e | _, w'⟩
      · exact failTask_ends takes_advance htask rfl _ w'
      · rw [h] at hsend
        exact .answered _ htask hsend

theorem receive_ends {index : Nat} {stream : DownloadStream} {encoded : EncodedFrameHeader}
    {bytes : Bytes} (htask : c.tasks[index]? = some (.receive stream))
    (hwhole : frameWhole encoded bytes = true) :
    StreamEnds c w (.frame index encoded bytes) (c.receive index stream encoded bytes w) := by
  have hfail : ∀ e, StreamEnds c w (.frame index encoded bytes) (c.failTask index e w) :=
    fun e => failTask_ends takes_own htask rfl e w
  rw [receive]
  split
  · exact hfail _
  · rename_i header hread
    simp only [bind_eq_ok] at hread
    obtain ⟨header', hheader, _, hvalid, heq⟩ := hread
    obtain rfl := Except.ok.inj heq
    have htakes : c.takes (.frame index encoded bytes) =
        if header'.type = .data then some (index, stream, bytes) else none := by
      rw [takes, htask, hheader]
      simp [hwhole]
    rw [frameWhole, hheader, decide_eq_true_eq] at hwhole
    split
    · rename_i htype
      have hnone : c.takes (.frame index encoded bytes) = none := by
        rw [htakes, htype]
        rfl
      split
      · exact hfail _
      · rename_i hidle
        have hsend := sendFrame_frame w
        rcases h : sendFrame w with ⟨e | _, w'⟩
        · exact .failed e takes_own htask rfl
        · rw [h] at hsend
          exact .fin htask hnone (eq_false_of_ne_true hidle) hsend
    · split
      · rename_i htype
        cases htaken : takeData c.options c.backend stream header' bytes w.crc32cHardwareAvailable with
        | error e => exact hfail e
        | ok taken =>
            obtain ⟨stream', jobs⟩ := taken
            obtain ⟨b, hb, htotal, hnext, rfl, rfl⟩ := takeData_ok hwhole htaken
            rw [if_pos htype] at htakes
            refine .data htask htakes hheader htype ?_ hb hnext
            rw [hwhole, ← htotal]
            exact validateFrameHeader_data hvalid htype
      · rename_i hdata
        rw [if_neg hdata] at htakes
        split
        · cases htaken : takeComplete c.options stream bytes with
          | error e => exact hfail e
          | ok payload => exact .complete htask htakes (takeComplete_ok htaken)
        · exact hfail _

theorem writeSome_ends {index moved : Nat} {stream : DownloadStream} {job : WriteJob}
    {jobs : List WriteJob} {complete : Option ChunkCompletePayload} {s : DownloadSession}
    (htask : c.tasks[index]? = some (.write stream (job :: jobs) complete))
    (hs : c.shared.session = some s) :
    StreamEnds c w (.advance index moved)
      (c.writeSome index moved stream job jobs complete s.manifest.tempPath w) := by
  rw [writeSome]
  rcases hwrite : w.writeAtAll s.manifest.tempPath job.offset (job.data.take moved)
    with ⟨e | _, w'⟩
  · exact failTask_ends takes_advance htask rfl _ w'
  · exact .wrote htask hs hwrite

theorem record_ends {index moved : Nat} {stream : DownloadStream}
    {payload : ChunkCompletePayload} {s : DownloadSession}
    (htask : c.tasks[index]? = some (.write stream [] (some payload)))
    (hs : c.shared.session = some s) :
    StreamEnds c w (.advance index moved) (c.record index stream payload s w) := by
  have hends := recordComplete_ends stream payload s w
  rw [record]
  rcases h : recordComplete stream payload s w with ⟨e | stream', s', w'⟩
  · exact @failTask_ends c w { c with shared := { c.shared with session := some s' } } _ _ _
      takes_advance htask rfl _ w'
  · rw [h] at hends
    cases hends with
    | recorded hchecksum hrecord hresult =>
        rcases hresult with ⟨_, _, -, hbad⟩ | ⟨rfl, hgood⟩
        · cases hbad
        · obtain rfl := Except.ok.inj hgood
          exact .recorded htask hs hchecksum hrecord

theorem takes_none {index : Nat} {encoded : EncodedFrameHeader} {bytes : Bytes}
    (h : frameWhole encoded bytes = false ∨
      ∀ stream, c.tasks[index]? ≠ some (.receive stream)) :
    c.takes (.frame index encoded bytes) = none := by
  rw [takes]
  split
  · rename_i htask _
    apply if_neg
    rintro ⟨hwhole, -⟩
    rcases h with h | h
    · rw [h] at hwhole
      cases hwhole
    · exact h _ htask
  · rfl

/-- **Every step of a thread.** -/
theorem step_ends (hphase : c.phase = .streaming) {event : Event} (hevent : event ≠ .proceed) :
    StreamEnds c w event (c.step event w) := by
  unfold step
  rw [hphase]
  cases event with
  | frame index encoded bytes =>
      dsimp only
      split
      · rename_i hwhole
        split
        · rename_i htask
          exact connect_ends htask encoded bytes
        · rename_i htask
          exact receive_ends htask hwhole
        · rename_i hother
          exact .kept (takes_none (Or.inr hother))
      · rename_i hpart
        exact .kept (takes_none (Or.inl (eq_false_of_ne_true hpart)))
  | lost index status =>
      dsimp only
      split
      · rename_i htask
        exact failTask_ends (fun _ _ _ h => by cases h) htask rfl _ w
      · rename_i htask
        exact failTask_ends (fun _ _ _ h => by cases h) htask rfl _ w
      · exact .kept rfl
  | advance index moved =>
      dsimp only
      rw [advance]
      split
      · rename_i htask
        exact prepare_ends htask
      · rename_i htask
        exact answer_ends htask
      · rename_i htask hs
        exact writeSome_ends htask hs
      · rename_i htask
        exact .written htask
      · rename_i htask hs
        exact record_ends htask hs
      · exact .kept rfl
  | proceed => exact absurd rfl hevent

theorem failed_of_tasks {c' : Client} {index : Nat} {task : StreamTask} {e : Status}
    (htask : c.tasks[index]? = some task) (htasks : c'.tasks = c.tasks.set index (.ended (.error e))) :
    c'.Failed := by
  refine ⟨index, e, ?_⟩
  rw [htasks]
  exact List.getElem?_set_self (List.getElem?_eq_some_iff.mp htask).1

/-- A thread that has failed does not come back. -/
theorem Failed.setTask {index : Nat} {task task' : StreamTask} (h : c.Failed)
    (htask : c.tasks[index]? = some task) (hrunning : task.hasEnded = false) :
    (c.setTask index task').Failed := by
  obtain ⟨i, e, hi⟩ := h
  refine ⟨i, e, ?_⟩
  show (c.tasks.set index task')[i]? = _
  rw [List.getElem?_set_ne]
  · exact hi
  · rintro rfl
    obtain rfl := Option.some.inj (htask.symm.trans hi)
    cases hrunning

theorem StreamEnds.failed_of {event : Event} {r : Client × World} (h : StreamEnds c w event r)
    (hfailed : c.Failed) : r.1.Failed := by
  have hset : ∀ {c₁ : Client} {index : Nat} {task task' : StreamTask}, c₁.tasks = c.tasks →
      c.tasks[index]? = some task → task.hasEnded = false → (c₁.setTask index task').Failed := by
    intro c₁ index task task' hsame htask hrunning
    have hfailed₁ : c₁.Failed := by
      rw [Failed, hsame]
      exact hfailed
    exact hfailed₁.setTask (by rw [hsame]; exact htask) hrunning
  cases h with
  | kept htakes => exact hfailed
  | failed e _ htask htasks => exact failed_of_tasks htask htasks
  | connected _ htask _ => exact hset rfl htask rfl
  | prepared _ htask _ => exact hset rfl htask rfl
  | answered _ htask _ => exact hset rfl htask rfl
  | data htask _ _ _ _ _ _ => exact hset rfl htask rfl
  | complete htask _ _ => exact hset rfl htask rfl
  | fin htask _ _ _ => exact hset rfl htask rfl
  | wrote htask _ _ => exact hset rfl htask rfl
  | written htask => exact hset rfl htask rfl
  | recorded htask _ _ _ => exact hset rfl htask rfl

/-- Without a status of failure no thread has failed. -/
theorem not_failed {c : Client} (h : c.tasks.findSome? StreamTask.failure? = none) :
    ¬c.Failed := by
  rintro ⟨i, e, htask⟩
  have hnone := List.findSome?_eq_none_iff.mp h _ (List.mem_of_getElem? htask)
  cases hnone

end Client

end FileDownloadClient

end GridFlux
