/-
GridFlux/DownloadTempFile.lean

The temp file of a download while its threads run.

A thread changes the file with one `pwrite` at a time, and nothing keeps the
chunks of two threads apart.  What is kept as long as no thread has failed is
`Streaming`: every position of a recorded chunk holds what some chunk wants
there, of those recorded and those being received.
-/
import GridFlux.DownloadSteps

namespace GridFlux

open HalfOpen TextCodec Transition SharedFile

namespace FileDownloadClient

/-! ### Chunks being received -/

/-- The chunk a stream is in, and the writes still to be made. -/
def DownloadStream.chunk (stream : DownloadStream) (pending : List WriteJob) : ChunkState :=
  ⟨stream.activeChunkOffset, stream.activeChunkNextOffset, stream.checksumComputer, stream.writer,
    pending⟩

def StreamTask.chunkState : StreamTask → Option ChunkState
  | .receive stream => if stream.chunkActive then some (stream.chunk []) else none
  | .write stream jobs _ => some (stream.chunk jobs)
  | _ => none

namespace Client

/-- The chunks the threads are in. -/
def chunks (c : Client) (i : Nat) : Option ChunkState := c.tasks[i]?.bind StreamTask.chunkState

variable {c : Client} {index : Nat} {task : StreamTask}

theorem chunks_eq (htask : c.tasks[index]? = some task) : c.chunks index = task.chunkState := by
  rw [chunks, htask]
  rfl

theorem chunks_setTask (htask : c.tasks[index]? = some task) (task' : StreamTask) :
    (c.setTask index task').chunks = Function.update c.chunks index task'.chunkState := by
  obtain ⟨hlt, -⟩ := List.getElem?_eq_some_iff.mp htask
  funext j
  show (c.tasks.set index task')[j]?.bind _ = _
  by_cases hij : j = index
  · subst hij
    rw [List.getElem?_set_self hlt, Function.update_self]
    rfl
  · rw [List.getElem?_set_ne (fun hji => hij hji.symm), Function.update_of_ne hij]
    rfl

theorem chunks_setSame (htask : c.tasks[index]? = some task) {task' : StreamTask}
    (hsame : task'.chunkState = task.chunkState) : (c.setTask index task').chunks = c.chunks := by
  rw [chunks_setTask htask, hsame, ← chunks_eq htask, Function.update_eq_self]

end Client

/-! ### Downloads -/

/-- A download over several attempts.  The last two fields are no part of the
program: what each thread has received of the chunk it is in, and what whole
chunks have been made of in this attempt. -/
structure DownloadRun where
  client : Option Client
  world : World
  gathered : Nat → Bytes
  contents : Set (Segment UInt8)

inductive DownloadEvent
  | attempt (options : FileDownloadOptions) (w : World)
  | received (event : Event)

namespace DownloadRun

/-- What the threads have received after an event. -/
def gather (run : DownloadRun) (c : Client) (event : Event) : Nat → Bytes :=
  match c.takes event with
  | some (index, stream, bytes) =>
      Function.update run.gathered index
        (if stream.chunkActive then run.gathered index ++ bytes else bytes)
  | none => run.gathered

/-- The chunk that a thread is about to record. -/
def endedChunk (run : DownloadRun) (c : Client) (event : Event) : Set (Segment UInt8) :=
  { seg | ∃ index moved stream payload, event = .advance index moved ∧
    c.tasks[index]? = some (.write stream [] (some payload)) ∧
    seg = ⟨stream.activeChunkOffset, run.gathered index⟩ }

/-- The chunks that a session finds in the temp file when it is opened. -/
def foundChunks (c c' : Client) (w : World) : Set (Segment UInt8) :=
  { seg | c.shared.sessionReady = false ∧ c'.shared.sessionReady = true ∧ ∃ s content,
    c'.shared.session = some s ∧ w.files s.manifest.tempPath = some content ∧
    ∃ record ∈ s.records,
      seg = ⟨record.offset, World.slice content record.offset record.length⟩ }

/-- The run after an event of its client. -/
def receive (run : DownloadRun) (c : Client) (event : Event) : DownloadRun where
  client := some (c.step event run.world).1
  world := (c.step event run.world).2
  gathered := run.gather c event
  contents := run.contents ∪ run.endedChunk c event ∪
    foundChunks c (c.step event run.world).1 (c.step event run.world).2

theorem gather_none {run : DownloadRun} {c : Client} {event : Event}
    (h : c.takes event = none) : run.gather c event = run.gathered := by
  rw [gather, h]

theorem subset_receive (run : DownloadRun) (c : Client) (event : Event) :
    run.contents ⊆ (run.receive c event).contents := fun _ h => Or.inl (Or.inl h)

end DownloadRun

/-- The downloads with checksums to one output path.  An attempt may be cut
anywhere; the next one finds the manifest the one before has left, or none, and
everything else may have changed. -/
def downloadAttempts (path : Path) : System DownloadRun DownloadEvent where
  initial run := run.client = none ∧ run.world.files (downloadManifestPathForOutput path) = none
  step event run run' :=
    match event with
    | .attempt options w =>
        options.path = path ∧ options.checksumAlgorithm = .crc32c ∧
          (w.files (downloadManifestPathForOutput path) =
              run.world.files (downloadManifestPathForOutput path) ∨
            w.files (downloadManifestPathForOutput path) = none) ∧
          run' = ⟨some (.start options w), w, fun _ => [], ∅⟩
    | .received event => ∃ c, run.client = some c ∧ run' = run.receive c event

/-! ### While the threads run -/

/-- What holds of a thread; `ready` and `totalSize` are of the shared state. -/
def TaskOk (ready : Bool) (totalSize : UInt64) : StreamTask → Prop
  | .answer _ init _ => ready = true ∧ init.totalSize = totalSize
  | .receive stream => ready = true ∧ stream.init.totalSize = totalSize ∧
      (stream.chunkActive = false → stream.writer.buffered = [])
  | .write stream _ complete => ready = true ∧ stream.init.totalSize = totalSize ∧
      stream.chunkActive = true ∧ ∀ payload, complete = some payload →
        stream.writer.buffered = [] ∧ CompleteOk stream payload
  | _ => True

theorem TaskOk.closed {totalSize totalSize' : UInt64} {ready : Bool} {task : StreamTask}
    (h : TaskOk false totalSize task) : TaskOk ready totalSize' task ∧ task.chunkState = none := by
  cases task with
  | connect => exact ⟨trivial, rfl⟩
  | prepare streamId init => exact ⟨trivial, rfl⟩
  | answer streamId init missing => cases h.1
  | receive stream => cases h.1
  | write stream jobs complete => cases h.1
  | ended status => exact ⟨trivial, rfl⟩

/-- What holds while the threads run and none has failed: each thread is where
its stream says, and the temp file is in order. -/
structure Streaming (contents : Set (Segment UInt8)) (gathered : Nat → Bytes) (c : Client)
    (w : World) : Prop where
  tasks : ∀ (i : Nat) (task : StreamTask), c.tasks[i]? = some task →
    TaskOk c.shared.sessionReady c.shared.knownTotalSize task
  file : c.shared.sessionReady = true → ∃ s content, c.shared.session = some s ∧
    s.manifest.totalSize = c.shared.knownTotalSize.toNat ∧
    w.files s.manifest.tempPath = some content ∧
    FileOk contents s.records c.chunks gathered c.shared.knownTotalSize.toNat content

namespace Streaming

variable {contents contents' : Set (Segment UInt8)} {gathered : Nat → Bytes} {c : Client}
  {w w' : World} {index : Nat} {task task' : StreamTask}

theorem mono (h : Streaming contents gathered c w) (hcontents : contents ⊆ contents') :
    Streaming contents' gathered c w := by
  refine ⟨h.tasks, fun hready => ?_⟩
  obtain ⟨s, content, hs, htotal, hfile, hok⟩ := h.file hready
  exact ⟨s, content, hs, htotal, hfile, hok.contents_mono hcontents⟩

theorem setTask_ok (h : Streaming contents gathered c w) (htask : c.tasks[index]? = some task)
    (hok : TaskOk c.shared.sessionReady c.shared.knownTotalSize task') :
    ∀ (i : Nat) (t : StreamTask), (c.setTask index task').tasks[i]? = some t →
      TaskOk c.shared.sessionReady c.shared.knownTotalSize t := by
  obtain ⟨hlt, -⟩ := List.getElem?_eq_some_iff.mp htask
  intro i t ht
  change (c.tasks.set index task')[i]? = some t at ht
  by_cases hij : index = i
  · subst hij
    rw [List.getElem?_set_self hlt] at ht
    rw [← Option.some.inj ht]
    exact hok
  · rw [List.getElem?_set_ne hij] at ht
    exact h.tasks i t ht

/-- A thread goes on, and no chunk changes. -/
theorem setTask (h : Streaming contents gathered c w) (htask : c.tasks[index]? = some task)
    (hok : TaskOk c.shared.sessionReady c.shared.knownTotalSize task')
    (hsame : task'.chunkState = task.chunkState) (hframe : World.Frame ∅ w w') :
    Streaming contents gathered (c.setTask index task') w' := by
  refine ⟨h.setTask_ok htask hok, fun hready => ?_⟩
  obtain ⟨s, content, hs, htotal, hfile, hfileOk⟩ := h.file hready
  refine ⟨s, content, hs, htotal, (hframe.files _ (Set.notMem_empty _)).trans hfile, ?_⟩
  rw [Client.chunks_setSame htask hsame]
  exact hfileOk

/-- A thread goes on, with another chunk or other bytes of it. -/
theorem setFile {gathered' : Nat → Bytes} (h : Streaming contents gathered c w)
    (htask : c.tasks[index]? = some task)
    (hok : TaskOk c.shared.sessionReady c.shared.knownTotalSize task')
    (hfile : ∀ s content, c.shared.session = some s →
      w.files s.manifest.tempPath = some content →
      FileOk contents s.records c.chunks gathered c.shared.knownTotalSize.toNat content →
      ∃ content', w'.files s.manifest.tempPath = some content' ∧
        FileOk contents s.records (Function.update c.chunks index task'.chunkState) gathered'
          c.shared.knownTotalSize.toNat content') :
    Streaming contents gathered' (c.setTask index task') w' := by
  refine ⟨h.setTask_ok htask hok, fun hready => ?_⟩
  obtain ⟨s, content, hs, htotal, hcontent, hfileOk⟩ := h.file hready
  obtain ⟨content', hcontent', hfileOk'⟩ := hfile s content hs hcontent hfileOk
  refine ⟨s, content', hs, htotal, hcontent', ?_⟩
  rw [Client.chunks_setTask htask]
  exact hfileOk'

/-- The session is opened. -/
theorem opens {init : SessionInitPayload} {s : DownloadSession} {content : Bytes}
    {streamId : Nat} {missing : List CompletedRange} (h : Streaming contents gathered c w)
    (hready : c.shared.sessionReady = false)
    (htask : c.tasks[index]? = some (.prepare streamId init))
    (htotal : s.manifest.totalSize = init.totalSize.toNat)
    (hfile : w'.files s.manifest.tempPath = some content)
    (hintact : ∀ record ∈ s.records, record.Intact content)
    (hcontents : ∀ record ∈ s.records,
      ⟨record.offset, World.slice content record.offset record.length⟩ ∈ contents')
    (gathered' : Nat → Bytes) :
    Streaming contents' gathered' ({ c with shared := opened c.shared init s }.setTask index
      (.answer streamId init missing)) w' := by
  have hclosed : ∀ (i : Nat) (t : StreamTask), c.tasks[i]? = some t →
      TaskOk true init.totalSize t ∧ t.chunkState = none := by
    intro i t ht
    have hok := h.tasks i t ht
    rw [hready] at hok
    exact hok.closed
  obtain ⟨hlt, -⟩ := List.getElem?_eq_some_iff.mp htask
  constructor
  · intro i t ht
    show TaskOk true init.totalSize t
    change (c.tasks.set index _)[i]? = some t at ht
    by_cases hij : index = i
    · subst hij
      rw [List.getElem?_set_self hlt] at ht
      rw [← Option.some.inj ht]
      exact ⟨rfl, rfl⟩
    · rw [List.getElem?_set_ne hij] at ht
      exact (hclosed i t ht).1
  · intro _
    refine ⟨s, content, rfl, htotal, hfile,
      .of_covered (covered_of_intact hintact hcontents) _ _ fun i => ?_⟩
    -- nobody is in a chunk yet
    show ((c.setTask index (.answer streamId init missing)).chunks i) = none
    rw [@Client.chunks_setSame c index _ htask (.answer streamId init missing) rfl, Client.chunks]
    cases ht : c.tasks[i]? with
    | none => rfl
    | some t => exact (hclosed i t ht).2

end Streaming

/-! ### Frames -/

section Frames

variable {contents contents' : Set (Segment UInt8)} {records : List ChunkChecksumRecord}
  {chunks : Nat → Option ChunkState} {gathered : Nat → Bytes} {totalSize i : Nat}
  {content : Bytes} {options : FileDownloadOptions} {backend : ChecksumBackend}
  {stream b : DownloadStream} {header : FrameHeader} {hardware : Bool} {bytes : Bytes}
  {payload : ChunkCompletePayload}

theorem beginChunk_same (options : FileDownloadOptions) (backend : ChecksumBackend)
    (stream : DownloadStream) (header : FrameHeader) (hardware : Bool) :
    (beginChunk options backend stream header hardware).chunkActive = true ∧
      (beginChunk options backend stream header hardware).init = stream.init := by
  rw [beginChunk]
  split
  · rename_i hactive
    exact ⟨hactive, rfl⟩
  · exact ⟨rfl, rfl⟩

/-- **A DATA frame** goes on from what the stream has received. -/
theorem fileOk_data (h : FileOk contents records chunks gathered totalSize content)
    (hchunk : chunks i = (StreamTask.receive stream).chunkState)
    (hidle : stream.chunkActive = false → stream.writer.buffered = [])
    (hcrc : options.checksumAlgorithm = .crc32c)
    (hb : b = beginChunk options backend stream header hardware)
    (hinside : b.activeChunkNextOffset + bytes.length ≤ totalSize) :
    FileOk contents records (Function.update chunks i
      (some ((b.afterData hardware bytes).chunk (b.writer.write b.activeChunkNextOffset bytes).1)))
      (Function.update gathered i (if stream.chunkActive then gathered i ++ bytes else bytes))
      totalSize content := by
  rw [StreamTask.chunkState] at hchunk
  cases hactive : stream.chunkActive with
  | true =>
      rw [if_pos hactive] at hchunk
      rw [beginChunk, if_pos hactive] at hb
      subst hb
      obtain ⟨written, hgathers, hcovered, -⟩ := h.receiving i _ hchunk
      refine h.extend (fun old hold => ?_) (hgathers.afterData rfl hardware bytes) hcovered hinside
      obtain rfl := Option.some.inj (hchunk.symm.trans hold)
      exact ⟨rfl, bytes, rfl⟩
  | false =>
      rw [hactive, if_neg Bool.false_ne_true] at hchunk
      rw [beginChunk, hactive, if_neg Bool.false_ne_true] at hb
      subst hb
      have hbegun := (Gathers.begin header.offset.toNat hardware backend
        (hidle hactive)).afterData rfl hardware bytes
      rw [List.nil_append, ← hcrc] at hbegun
      refine h.extend (fun old hold => ?_) hbegun
        (fun x hx => absurd hx.1 (Nat.not_le.mpr hx.2)) hinside
      rw [hchunk] at hold
      cases hold

/-- A CHUNK_COMPLETE frame flushes the writer. -/
theorem fileOk_complete (h : FileOk contents records chunks gathered totalSize content)
    (hchunk : chunks i = some (stream.chunk [])) :
    FileOk contents records (Function.update chunks i (some
      (({ stream with writer := stream.writer.flush.2 } : DownloadStream).chunk
        stream.writer.flush.1))) gathered totalSize content := by
  obtain ⟨written, hgathers, hcovered, hnext⟩ := h.receiving i _ hchunk
  have hflushed : FileOk _ _ (Function.update _ i _) (Function.update _ i (gathered i)) _ _ :=
    h.extend (fun old hold => by
      obtain rfl := Option.some.inj (hchunk.symm.trans hold)
      exact ⟨rfl, [], (List.append_nil _).symm⟩) (hgathers.flush rfl) hcovered hnext
  rw [Function.update_eq_self] at hflushed
  exact hflushed

/-- **A chunk that is recorded.** -/
theorem fileOk_recorded {s s' : DownloadSession} {w w' : World} {status : Except Status Unit}
    (h : FileOk contents s.records chunks gathered totalSize content)
    (hchunk : chunks i = some (stream.chunk [])) (hbuffered : stream.writer.buffered = [])
    (hcheck : CompleteOk stream payload)
    (hchecksum : stream.checksumComputer.finalize = payload.checksum)
    (hrecord : s.recordVerifiedChunk downloadSessionFormat payload.chunkId.toNat
      payload.offset.toNat payload.length.toNat payload.checksum w = (status, s', w'))
    (hok : status = .ok ()) (hcontents : contents ⊆ contents')
    (hmem : ⟨stream.activeChunkOffset, gathered i⟩ ∈ contents') :
    FileOk contents' s'.records (Function.update chunks i none) gathered totalSize content := by
  obtain ⟨written, hgathers, -, -⟩ := h.receiving i _ hchunk
  have hrecorded := s.recordVerifiedChunk_recorded downloadSessionFormat
    payload.chunkId.toNat payload.offset.toNat payload.length.toNat payload.checksum w
  rw [hrecord] at hrecorded
  have has : RecordedAs ⟨payload.chunkId.toNat, payload.offset.toNat, payload.length.toNat,
      payload.checksum⟩ ⟨stream.activeChunkOffset, gathered i⟩ := by
    refine ⟨hcheck.offset.symm, ?_, hgathers.finalize.symm.trans hchecksum⟩
    have hend : stream.activeChunkNextOffset = stream.activeChunkOffset + (gathered i).length :=
      hgathers.next_eq
    show (gathered i).length = payload.length.toNat
    rw [hcheck.length, hend, Nat.add_sub_cancel_left]
  refine h.record hchunk rfl hbuffered hcontents hmem hrecorded.kept (fun r hr => ?_)
    ⟨_, hrecorded.done hok, has⟩
  rcases hrecorded.new r hr with hold | rfl
  · exact Or.inl hold
  · exact Or.inr has

end Frames

/-- **A step of a thread**, when no thread has failed after it. -/
theorem Streaming.step {run : DownloadRun} {c : Client} {event : Event} {r : Client × World}
    (h : Streaming run.contents run.gathered c run.world)
    (hcrc : c.options.checksumAlgorithm = .crc32c)
    (hsound : ∀ s, c.shared.session = some s → SessionSound c.options s)
    (hends : Client.StreamEnds c run.world event r) (hfailed : ¬r.1.Failed) :
    Streaming (run.contents ∪ run.endedChunk c event ∪ DownloadRun.foundChunks c r.1 r.2)
      (run.gather c event) r.1 r.2 := by
  have hmono : run.contents ⊆
      run.contents ∪ run.endedChunk c event ∪ DownloadRun.foundChunks c r.1 r.2 :=
    fun _ hseg => Or.inl (Or.inl hseg)
  cases hends with
  | kept htakes =>
      rw [DownloadRun.gather_none htakes]
      exact h.mono hmono
  | failed e _ htask htasks => exact absurd (Client.failed_of_tasks htask htasks) hfailed
  | @connected index streamId encoded bytes init streamsSeen htask hread =>
      have hnone : c.takes (.frame index encoded bytes) = none := by
        apply Client.takes_none
        refine Or.inr fun stream hstream => ?_
        rw [htask] at hstream
        cases hstream
      rw [DownloadRun.gather_none hnone]
      have hseen : Streaming run.contents run.gathered
          { c with shared := { c.shared with streamsSeen := streamsSeen } } run.world :=
        ⟨h.tasks, h.file⟩
      have hok : TaskOk c.shared.sessionReady c.shared.knownTotalSize (.prepare streamId init) :=
        trivial
      exact (hseen.setTask htask hok rfl (World.Frame.refl _)).mono hmono
  | @prepared index moved streamId init shared w' missing htask hprepare =>
      rw [DownloadRun.gather_none rfl]
      rcases prepareDownloadSession_ok hcrc hprepare with
        ⟨hready, htotal, rfl, rfl⟩ | ⟨hready, s, content, rfl, hopened, hfile, hintact⟩
      · have hok : TaskOk c.shared.sessionReady c.shared.knownTotalSize
            (.answer streamId init missing) := ⟨hready, htotal.symm⟩
        exact (h.setTask htask hok rfl (World.Frame.refl _)).mono hmono
      · refine h.opens hready htask hopened.sound.opened.totalSize hfile hintact
          (fun record hrecord => Or.inr ?_) _
        exact ⟨hready, rfl, s, content, rfl, hfile, record, hrecord, rfl⟩
  | @answered index moved streamId init missing w' hardware htask hframe =>
      rw [DownloadRun.gather_none rfl]
      obtain ⟨hready, htotal⟩ := h.tasks _ _ htask
      have hok : TaskOk c.shared.sessionReady c.shared.knownTotalSize
          (.receive (.new c.options c.backend streamId init hardware)) :=
        ⟨hready, htotal, fun _ => rfl⟩
      exact (h.setTask htask hok rfl hframe).mono hmono
  | @data index encoded bytes header stream b htask htakes hheader htype hinside hb hnext =>
      obtain ⟨hready, htotal, hidle⟩ := h.tasks _ _ htask
      obtain ⟨hactive, hinit⟩ := beginChunk_same c.options c.backend stream header
        run.world.crc32cHardwareAvailable
      rw [← hb] at hactive hinit
      have hgather : run.gather c (.frame index encoded bytes) = Function.update run.gathered index
          (if stream.chunkActive then run.gathered index ++ bytes else bytes) := by
        rw [DownloadRun.gather, htakes]
      rw [hgather]
      have hok : TaskOk c.shared.sessionReady c.shared.knownTotalSize
          (.write (b.afterData run.world.crc32cHardwareAvailable bytes)
            (b.writer.write b.activeChunkNextOffset bytes).1 none) :=
        ⟨hready, (congrArg SessionInitPayload.totalSize hinit).trans htotal, hactive,
          fun payload hnone => (by cases hnone)⟩
      refine (h.setFile htask hok fun s content hs hfile hfileOk => ⟨content, hfile, ?_⟩).mono hmono
      apply fileOk_data hfileOk (Client.chunks_eq htask) hidle hcrc hb
      rw [hnext, ← htotal]
      exact hinside
  | @complete index encoded bytes stream payload htask htakes hcheck =>
      rw [DownloadRun.gather_none htakes]
      obtain ⟨hready, htotal, -⟩ := h.tasks _ _ htask
      have hok : TaskOk c.shared.sessionReady c.shared.knownTotalSize
          (.write { stream with writer := stream.writer.flush.2 } stream.writer.flush.1
            (some payload)) := by
        refine ⟨hready, htotal, hcheck.active, fun payload' hpayload => ?_⟩
        obtain rfl := Option.some.inj hpayload
        exact ⟨rfl, hcheck.active, hcheck.offset, hcheck.length⟩
      refine (h.setFile htask hok fun s content hs hfile hfileOk => ⟨content, hfile, ?_⟩).mono hmono
      apply fileOk_complete hfileOk
      rw [Client.chunks_eq htask]
      exact if_pos hcheck.active
  | @fin index encoded bytes stream w' htask htakes hidle hframe =>
      rw [DownloadRun.gather_none htakes]
      have hnone : (StreamTask.receive stream).chunkState = none :=
        if_neg (by rw [hidle]; exact Bool.false_ne_true)
      have hok : TaskOk c.shared.sessionReady c.shared.knownTotalSize (.ended (.ok ())) := trivial
      exact (h.setTask htask hok hnone.symm hframe).mono hmono
  | @wrote index moved stream job jobs complete s w' htask hs hwrite =>
      rw [DownloadRun.gather_none rfl]
      have hok : TaskOk c.shared.sessionReady c.shared.knownTotalSize (.write stream
          (if moved < job.data.length then ⟨job.offset + moved, job.data.drop moved⟩ :: jobs
            else jobs) complete) := by
        obtain ⟨hready, htotal, hactive, hcomplete⟩ := h.tasks _ _ htask
        exact ⟨hready, htotal, hactive, hcomplete⟩
      refine (h.setFile htask hok fun s' content hs' hfile hfileOk => ?_).mono hmono
      obtain rfl := Option.some.inj (hs.symm.trans hs')
      exact hfileOk.writeSome (Client.chunks_eq htask) rfl moved hfile hwrite
  | @written index moved stream htask =>
      rw [DownloadRun.gather_none rfl]
      obtain ⟨hready, htotal, hactive, -⟩ := h.tasks _ _ htask
      have hok : TaskOk c.shared.sessionReady c.shared.knownTotalSize (.receive stream) := by
        refine ⟨hready, htotal, fun hidle => ?_⟩
        rw [hactive] at hidle
        cases hidle
      exact (h.setTask htask hok (if_pos hactive) (World.Frame.refl _)).mono hmono
  | @recorded index moved stream payload s s' w' htask hs hchecksum hrecord =>
      rw [DownloadRun.gather_none rfl]
      obtain ⟨hready, htotal, hactive, hcomplete⟩ := h.tasks _ _ htask
      obtain ⟨hbuffered, hcheck⟩ := hcomplete payload rfl
      have hcalls : Session.Calls downloadSessionFormat ∅ s run.world s' w' :=
        recordVerifiedChunk_calls hrecord
      -- only the session changes, and the thread has no chunk any more
      obtain ⟨s₀, content, hs₀, htotal₀, hfile, hfileOk⟩ := h.file hready
      obtain rfl := Option.some.inj (hs.symm.trans hs₀)
      have hidle : (StreamTask.receive { stream with chunkActive := false }).chunkState = none := rfl
      have hended : (⟨stream.activeChunkOffset, run.gathered index⟩ : Segment UInt8) ∈
          run.contents ∪ run.endedChunk c (.advance index moved) :=
        Or.inr ⟨index, moved, stream, payload, rfl, htask, rfl⟩
      have hchunk : c.chunks index = some (stream.chunk []) := Client.chunks_eq htask
      have hrecorded := fileOk_recorded hfileOk hchunk hbuffered hcheck hchecksum hrecord rfl
        Set.subset_union_left hended
      have hok : TaskOk c.shared.sessionReady c.shared.knownTotalSize
          (.receive { stream with chunkActive := false }) := ⟨hready, htotal, fun _ => hbuffered⟩
      refine ⟨h.setTask_ok htask hok, fun _ => ⟨s', content, rfl, ?_, ?_, ?_⟩⟩
      · exact ((hsound s hs).calls hcalls).2.trans htotal₀
      · rw [hcalls.tempPath, (hsound s hs).sessionOf.temp_kept hcalls]
        exact hfile
      · show FileOk _ _ (c.setTask index (.receive { stream with chunkActive := false })).chunks _ _ _
        rw [Client.chunks_setTask htask, hidle]
        exact hrecorded.contents_mono fun seg hseg => Or.inl hseg

end FileDownloadClient

end GridFlux
