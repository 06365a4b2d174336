/-
GridFlux/UploadRuns.lean

An upload over any number of attempts, whatever the clients send.

An attempt starts a receiver on the files there are; the manifest is the one
the attempt before has left, or has been removed, and everything else may have
changed.  While it runs, any frames arrive on its connections in any order.

The first thing that holds of such runs is about the connections alone
(`ConnectionsOk`): each has a stream of its own, chunks are begun by connections
that are ready, and the FINs are counted right.
-/
import GridFlux.Planner
import GridFlux.ReceiverRuns
import GridFlux.RecordedChunks
import GridFlux.Transition

namespace GridFlux

open HalfOpen TextCodec Transition SharedFile

namespace FileTransferServer

/-! ### Runs -/

/-- An upload.  The last three fields are no part of the program: what each
connection has sent of the chunk it is in, what whole chunks have been made of
in this attempt, and whether its `markCommitted` has succeeded. -/
structure UploadRun where
  receiver : Option Receiver
  world : World
  gathered : Nat → Bytes
  contents : Set (Segment UInt8)
  committed : Bool

inductive UploadEvent
  | attempt (options : FileTransferOptions) (w : World)
  | received (event : Event)

/-- The payload an event completes: its connection and its bytes. -/
def Receiver.takes (r : Receiver) : Event → Option (Nat × FileServerConnection × Bytes)
  | .payload index bytes =>
      match r.connections[index]? with
      | none => none
      | some c =>
          if c.readState = .payload ∧ bytes.length = c.currentHeader.payloadSize.toNat then
            some (index, c, bytes)
          else none
  | _ => none

/-- Does the event make the last step of the commit, and does that succeed? -/
def Receiver.publishes (r : Receiver) (event : Event) (w : World) : Bool :=
  match r.phase, event, r.transfer.active with
  | .verified, .proceed, some active =>
      (publish transferSessionFormat r.options.toCommitOptions active.session w).1.toBool
  | _, _, _ => false

namespace UploadRun

/-- What a connection has gathered of its chunk after a DATA frame. -/
def gatheredWith (run : UploadRun) (index : Nat) (c : FileServerConnection) (bytes : Bytes) :
    Bytes :=
  if c.chunkActive then run.gathered index ++ bytes else bytes

def gather (run : UploadRun) (r : Receiver) (event : Event) : Nat → Bytes :=
  match r.takes event with
  | some (index, c, bytes) =>
      if c.currentHeader.type = .data then
        Function.update run.gathered index (run.gatheredWith index c bytes)
      else run.gathered
  | none => run.gathered

/-- The chunk that a CHUNK_COMPLETE frame ends. -/
def endedChunk (run : UploadRun) (r : Receiver) (event : Event) : Set (Segment UInt8) :=
  { seg | ∃ index c bytes, r.takes event = some (index, c, bytes) ∧
    c.currentHeader.type = .chunkComplete ∧ c.chunkActive = true ∧
    seg = ⟨c.activeChunkOffset, run.gathered index⟩ }

/-- The chunks that a session finds in the temp file when it is opened. -/
def foundChunks (r r' : Receiver) (w : World) : Set (Segment UInt8) :=
  { seg | r.transfer.active = none ∧ ∃ active content, r'.transfer.active = some active ∧
    w.files active.session.manifest.tempPath = some content ∧
    ∃ record ∈ active.session.records,
      seg = ⟨record.offset, World.slice content record.offset record.length⟩ }

/-- The run after an event of its receiver. -/
def receive (run : UploadRun) (r : Receiver) (event : Event) : UploadRun where
  receiver := some (r.step event run.world).1
  world := (r.step event run.world).2
  gathered := run.gather r event
  contents := run.contents ∪ run.endedChunk r event ∪
    foundChunks r (r.step event run.world).1 (r.step event run.world).2
  committed := run.committed || r.publishes event run.world

end UploadRun

/-- The uploads with checksums to one output path. -/
def uploadRuns (path : Path) : System UploadRun UploadEvent where
  initial run := run.receiver = none ∧ run.world.files (manifestPathForOutput path) = none
  step event run run' :=
    match event with
    | .attempt options w =>
        options.path = path ∧ options.checksumAlgorithm = .crc32c ∧
          (w.files (manifestPathForOutput path) = run.world.files (manifestPathForOutput path) ∨
            w.files (manifestPathForOutput path) = none) ∧
          ∃ r w', Receiver.start options w = (.ok r, w') ∧
            run' = ⟨some r, w', fun _ => [], ∅, false⟩
    | .received event => ∃ r, run.receiver = some r ∧ run' = run.receive r event

/-! ### Connections -/

/-- What holds of a connection, given the transfer it belongs to. -/
structure FileServerConnection.Ok (options : FileTransferOptions) (transfer : TransferState)
    (c : FileServerConnection) : Prop where
  idle : c.chunkActive = false → c.writer.buffered = []
  stream : c.hasStream = true → c.streamId < options.connections ∧
    transfer.streamsSeen[c.streamId]? = some true
  ready : c.sessionReady = true → c.hasStream = true ∧ transfer.active ≠ none
  chunk : c.chunkActive = true → c.sessionReady = true
  finished : c.finReceived = true →
    c.sessionReady = true ∧ c.chunkActive = false ∧ c.readState = .done
  reading : c.readState = .payload → c.hasStream = true ∧
    validateFrameHeader c.currentHeader options.bufferSize = .ok ()
  readingChunk : c.readState = .payload → c.currentHeader.type ≠ .sessionInit →
    (c.currentHeader.type = .data ∨ c.currentHeader.type = .chunkComplete) ∧
      c.sessionReady = true ∧ ∀ active, transfer.active = some active →
        c.currentHeader.totalSize = active.init.totalSize

/-- What holds of the connections of a receiver together. -/
structure Receiver.ConnectionsOk (r : Receiver) : Prop where
  ok : ∀ (i : Nat) (c : FileServerConnection), r.connections[i]? = some c →
    c.Ok r.options r.transfer
  distinct : ∀ (i j : Nat) (a b : FileServerConnection), i ≠ j → r.connections[i]? = some a →
    r.connections[j]? = some b → a.hasStream = true → b.hasStream = true →
      a.streamId ≠ b.streamId
  fins : r.transfer.finConnections = r.connections.countP (·.finReceived)
  accepted : r.connections.length ≤ r.options.connections
  streams : r.transfer.streamsSeen.length = r.options.connections

/-- What a transfer keeps while it goes on. -/
structure TransferState.Grows (t t' : TransferState) : Prop where
  seen : ∀ i : Nat, t.streamsSeen[i]? = some true → t'.streamsSeen[i]? = some true
  length : t'.streamsSeen.length = t.streamsSeen.length
  open' : t.active ≠ none → t'.active ≠ none
  init : ∀ active active', t.active = some active → t'.active = some active' →
    active'.init = active.init

theorem TransferState.Grows.refl (t : TransferState) : t.Grows t :=
  ⟨fun _ h => h, rfl, fun h => h, fun _ _ h h' => by rw [Option.some.inj (h.symm.trans h')]⟩

theorem FileServerConnection.Ok.grow {options : FileTransferOptions} {t t' : TransferState}
    {c : FileServerConnection} (h : c.Ok options t) (hgrows : t.Grows t') : c.Ok options t' where
  idle := h.idle
  stream hstream := ⟨(h.stream hstream).1, hgrows.seen _ (h.stream hstream).2⟩
  ready hready := ⟨(h.ready hready).1, hgrows.open' (h.ready hready).2⟩
  chunk := h.chunk
  finished := h.finished
  reading := h.reading
  readingChunk hreading htype := by
    obtain ⟨htypes, hready, htotal⟩ := h.readingChunk hreading htype
    refine ⟨htypes, hready, fun active' hactive' => ?_⟩
    obtain ⟨active, hactive⟩ := Option.ne_none_iff_exists'.mp (h.ready hready).2
    rw [hgrows.init active active' hactive hactive']
    exact htotal active hactive

namespace Receiver

variable {r : Receiver}

/-- One connection changes, and the transfer goes on. -/
theorem ConnectionsOk.set (h : r.ConnectionsOk) {i : Nat} {c c' : FileServerConnection}
    (hc : r.connections[i]? = some c) {t : TransferState} (hgrows : r.transfer.Grows t)
    (hok : c'.Ok r.options t)
    (hdistinct : ∀ (j : Nat) (d : FileServerConnection), j ≠ i → r.connections[j]? = some d →
      d.hasStream = true → c'.hasStream = true → c'.streamId ≠ d.streamId)
    (hfins : t.finConnections + (if c.finReceived then 1 else 0) =
      r.transfer.finConnections + (if c'.finReceived then 1 else 0)) :
    ({ r with connections := r.connections.set i c', transfer := t } : Receiver).ConnectionsOk := by
  obtain ⟨hlt, hget⟩ := List.getElem?_eq_some_iff.mp hc
  have hset : ∀ (j : Nat) (d : FileServerConnection), (r.connections.set i c')[j]? = some d →
      (j = i ∧ d = c') ∨ (j ≠ i ∧ r.connections[j]? = some d) := by
    intro j d hd
    by_cases hij : j = i
    · subst hij
      rw [List.getElem?_set_self hlt] at hd
      exact Or.inl ⟨rfl, (Option.some.inj hd).symm⟩
    · rw [List.getElem?_set_ne (fun hji => hij hji.symm)] at hd
      exact Or.inr ⟨hij, hd⟩
  refine ⟨fun j d hd => ?_, fun j k a b hjk ha hb hsa hsb => ?_, ?_, ?_, ?_⟩
  · rcases hset j d hd with ⟨-, rfl⟩ | ⟨-, hd⟩
    · exact hok
    · exact (h.ok j d hd).grow hgrows
  · rcases hset j a ha with ⟨hj, rfl⟩ | ⟨hj, ha'⟩
    · rcases hset k b hb with ⟨hk, rfl⟩ | ⟨hk, hb'⟩
      · exact absurd (hj.trans hk.symm) hjk
      · exact hdistinct k b hk hb' hsb hsa
    · rcases hset k b hb with ⟨hk, rfl⟩ | ⟨hk, hb'⟩
      · exact (hdistinct j a hj ha' hsa hsb).symm
      · exact h.distinct j k a b hjk ha' hb' hsa hsb
  · have hcount := List.countP_set (p := (·.finReceived)) (a := c') hlt
    have hpos : r.connections[i].finReceived = true →
        0 < r.connections.countP (·.finReceived) := fun hfin =>
      List.countP_pos_iff.mpr ⟨_, List.getElem_mem hlt, hfin⟩
    rw [hget] at hcount hpos
    rw [h.fins] at hfins
    show t.finConnections = (r.connections.set i c').countP (·.finReceived)
    rw [hcount]
    by_cases hfin : c.finReceived = true
    · have := hpos hfin
      simp only [hfin, if_true] at hfins ⊢
      omega
    · simp only [hfin] at hfins ⊢
      simpa using hfins
  · show (r.connections.set i c').length ≤ _
    rw [List.length_set]
    exact h.accepted
  · exact hgrows.length.trans h.streams

/-- The same, when stream and FIN stay. -/
theorem ConnectionsOk.setSame (h : r.ConnectionsOk) {i : Nat} {c c' : FileServerConnection}
    (hc : r.connections[i]? = some c) {t : TransferState} (hgrows : r.transfer.Grows t)
    (hok : c'.Ok r.options t) (hstream : c'.hasStream = c.hasStream)
    (hid : c'.streamId = c.streamId) (hfin : c'.finReceived = c.finReceived)
    (hcount : t.finConnections = r.transfer.finConnections) :
    ({ r with connections := r.connections.set i c', transfer := t } : Receiver).ConnectionsOk := by
  refine h.set hc hgrows hok (fun j d hj hd hsd hsc => ?_) (by rw [hcount, hfin])
  rw [hstream] at hsc
  rw [hid]
  exact h.distinct i j c d hj.symm hc hd hsc hsd

/-- The transfer goes on without the connections. -/
theorem ConnectionsOk.transfer (h : r.ConnectionsOk) {t : TransferState}
    (hgrows : r.transfer.Grows t) (hcount : t.finConnections = r.transfer.finConnections) :
    ({ r with transfer := t } : Receiver).ConnectionsOk :=
  ⟨fun i c hc => (h.ok i c hc).grow hgrows, h.distinct, hcount.trans h.fins, h.accepted,
    hgrows.length.trans h.streams⟩

end Receiver

/-! ### Payloads -/

/-- The connection after the bytes of a DATA frame have been taken in; `b` has
begun the chunk. -/
def FileServerConnection.afterData (b : FileServerConnection) (hardware : Bool) (bytes : Bytes) :
    FileServerConnection :=
  { b with
    writer := (b.writer.write b.currentHeader.offset.toNat bytes).2
    checksumComputer := b.checksumComputer.update hardware bytes
    activeChunkNextOffset := b.activeChunkNextOffset + b.currentHeader.payloadSize.toNat
    readState := .header }

/-- How a DATA payload ends. -/
inductive DataEnds (c : FileServerConnection) (active : ActiveTransfer) (bytes : Bytes)
    (w : World) : Except TransferError FileServerConnection × World → Prop
  | refused (e : TransferError) : DataEnds c active bytes w (.error e, w)
  | written {b : FileServerConnection} {status : Except Status Unit} {w' : World}
      {result : Except TransferError FileServerConnection}
      (hb : b = beginChunk c active w.crc32cHardwareAvailable)
      (hnext : b.activeChunkNextOffset = b.currentHeader.offset.toNat)
      (hrun : w.runWrites active.session.manifest.tempPath
        (b.writer.write b.currentHeader.offset.toNat bytes).1 = (status, w'))
      (hresult : (∃ e e', status = .error e ∧ result = .error e') ∨
        (status = .ok () ∧ result = .ok (b.afterData w.crc32cHardwareAvailable bytes))) :
      DataEnds c active bytes w (result, w')

theorem beginChunk_header (c : FileServerConnection) (active : ActiveTransfer) (hardware : Bool) :
    (beginChunk c active hardware).currentHeader = c.currentHeader := by
  rw [beginChunk]
  split
  · rfl
  · rfl

theorem processDataPayload_ends (c : FileServerConnection) (active : ActiveTransfer)
    (bytes : Bytes) (w : World) :
    DataEnds c active bytes w (processDataPayload c active bytes w) := by
  have hheader := beginChunk_header c active w.crc32cHardwareAvailable
  rw [processDataPayload]
  split
  · exact .refused _
  · rename_i hcontiguous
    rw [not_or, not_not, not_not, ← hheader] at hcontiguous
    rw [← hheader]
    generalize hb : beginChunk c active w.crc32cHardwareAvailable = b at hcontiguous hheader ⊢
    have hframe := w.runWrites_frame active.session.manifest.tempPath
      (b.writer.write b.currentHeader.offset.toNat bytes).1
    dsimp only
    rcases hrun : w.runWrites active.session.manifest.tempPath
      (b.writer.write b.currentHeader.offset.toNat bytes).1 with ⟨e | _, w'⟩
    · exact .written hb.symm hcontiguous.2 hrun (Or.inl ⟨_, _, rfl, rfl⟩)
    · rw [hrun] at hframe
      have hhardware : w'.crc32cHardwareAvailable = w.crc32cHardwareAvailable := hframe.hardware
      refine .written hb.symm hcontiguous.2 hrun (Or.inr ⟨rfl, ?_⟩)
      simp only [hhardware]
      rfl

/-- How a CHUNK_COMPLETE payload ends. -/
inductive ChunkEnds (c : FileServerConnection) (active : ActiveTransfer) (bytes : Bytes)
    (w : World) : Except TransferError FileServerConnection × TransferSession × World → Prop
  | refused (e : TransferError) : ChunkEnds c active bytes w (.error e, active.session, w)
  | flushed {status : Except Status Unit} {w' : World} (e : TransferError)
      (hrun : w.runWrites active.session.manifest.tempPath c.writer.flush.1 = (status, w')) :
      ChunkEnds c active bytes w (.error e, active.session, w')
  | recorded {payload : ChunkCompletePayload} {w₁ w' : World} {status : Except Status Unit}
      {s : TransferSession} {result : Except TransferError FileServerConnection}
      (hcheck : checkChunkComplete c active bytes = .ok payload)
      (hrun : w.runWrites active.session.manifest.tempPath c.writer.flush.1 = (.ok (), w₁))
      (hchecksum : c.checksumComputer.finalize = payload.checksum)
      (hrecord : active.session.recordVerifiedChunk transferSessionFormat payload.chunkId.toNat
        payload.offset.toNat payload.length.toNat payload.checksum w₁ = (status, s, w'))
      (hresult : (∃ e e', status = .error e ∧ result = .error e') ∨
        (status = .ok () ∧ result = .ok { c with
          writer := c.writer.flush.2
          chunkActive := false
          readState := .header })) :
      ChunkEnds c active bytes w (result, s, w')

theorem processChunkCompletePayload_ends (c : FileServerConnection) (active : ActiveTransfer)
    (bytes : Bytes) (w : World) :
    ChunkEnds c active bytes w (processChunkCompletePayload c active bytes w) := by
  rw [processChunkCompletePayload]
  cases hcheck : checkChunkComplete c active bytes with
  | error e => exact .refused e
  | ok payload =>
      dsimp only
      rcases hrun : w.runWrites active.session.manifest.tempPath c.writer.flush.1 with ⟨e | _, w₁⟩
      · exact .flushed _ hrun
      · dsimp only
        split
        · exact .flushed _ hrun
        · rename_i hchecksum
          rw [not_not] at hchecksum
          rcases hrecord : active.session.recordVerifiedChunk transferSessionFormat
            payload.chunkId.toNat payload.offset.toNat payload.length.toNat payload.checksum w₁
            with ⟨e | _, s, w'⟩
          · exact .recorded hcheck hrun hchecksum hrecord (Or.inl ⟨_, _, rfl, rfl⟩)
          · exact .recorded hcheck hrun hchecksum hrecord (Or.inr ⟨rfl, rfl⟩)

/-! ### The connections during a run -/

theorem SessionStep.open' {S : Set Path} {options : FileTransferOptions} {w w' : World}
    {before after : Option ActiveTransfer} (h : SessionStep S options w before after w') :
    (before ≠ none → after ≠ none) ∧
      ∀ active active', before = some active → after = some active' →
        active'.init = active.init := by
  cases h with
  | idle h => exact ⟨fun hne => absurd rfl hne, fun _ _ h => (by cases h)⟩
  | opened hinit hopens h => exact ⟨fun hne => absurd rfl hne, fun _ _ h => (by cases h)⟩
  | called h =>
      refine ⟨fun _ h => (by cases h), fun a a' ha ha' => ?_⟩
      obtain rfl := Option.some.inj ha
      obtain rfl := Option.some.inj ha'
      rfl

/-- What a step makes of the session, seen from the transfer. -/
theorem TransferState.Grows.of_step {S : Set Path} {options : FileTransferOptions} {w w' : World}
    {t t' : TransferState} (h : SessionStep S options w t.active t'.active w')
    (hseen : t'.streamsSeen = t.streamsSeen) : t.Grows t' :=
  ⟨fun i hi => by rwa [hseen], by rw [hseen], h.open'.1, h.open'.2⟩

theorem processSessionInitPayload_connection {options : FileTransferOptions} {index : Nat}
    {c c' : FileServerConnection} {t t' : TransferState} {bytes : Bytes} {w w' : World}
    (h : processSessionInitPayload options index c t bytes w = (.ok (), c', t', w')) :
    t'.streamsSeen = t.streamsSeen ∧ t'.finConnections = t.finConnections ∧
      ((c' = c ∧ t' = t) ∨
        (t'.active ≠ none ∧ c' = { c with sessionReady := true, readState := .header })) := by
  rw [processSessionInitPayload] at h
  cases hdecode : decodeSessionInitPayload bytes with
  | error e => simp [hdecode] at h
  | ok init =>
      simp only [hdecode] at h
      rcases hinit : initializeSession options init t.active w with ⟨e | _, _ | active, w₁⟩
      · simp [hinit] at h
      · simp [hinit] at h
      · simp only [hinit, Prod.mk.injEq, true_and] at h
        obtain ⟨rfl, rfl, -⟩ := h
        exact ⟨rfl, rfl, Or.inl ⟨rfl, rfl⟩⟩
      · simp only [hinit] at h
        cases hresponse : resumeResponse options { c with sessionReady := true } active with
        | error e => simp [hresponse] at h
        | ok frame =>
            simp only [hresponse] at h
            rcases hsend : sendFrame w₁ with ⟨e | _, w₂⟩
            · simp [hsend] at h
            · simp only [hsend, Prod.mk.injEq, true_and] at h
              obtain ⟨rfl, rfl, -⟩ := h
              exact ⟨rfl, rfl, Or.inr ⟨fun h => (by cases h), rfl⟩⟩

theorem FileServerConnection.Ok.sessionInit {options : FileTransferOptions} {t : TransferState}
    {c : FileServerConnection} (h : c.Ok options t) (hactive : t.active ≠ none)
    (hstream : c.hasStream = true) (hfin : c.finReceived = false) :
    ({ c with sessionReady := true, readState := .header } : FileServerConnection).Ok options
      t where
  idle := h.idle
  stream := h.stream
  ready _ := ⟨hstream, hactive⟩
  chunk _ := rfl
  finished hfinished := by
    rw [show c.finReceived = true from hfinished] at hfin
    cases hfin
  reading hreading := by cases hreading
  readingChunk hreading := by cases hreading

theorem beginChunk_same (c : FileServerConnection) (active : ActiveTransfer) (hardware : Bool) :
    (beginChunk c active hardware).chunkActive = true ∧
      (beginChunk c active hardware).hasStream = c.hasStream ∧
      (beginChunk c active hardware).streamId = c.streamId ∧
      (beginChunk c active hardware).sessionReady = c.sessionReady ∧
      (beginChunk c active hardware).finReceived = c.finReceived := by
  rw [beginChunk]
  split
  · rename_i hactive
    exact ⟨hactive, rfl, rfl, rfl, rfl⟩
  · exact ⟨rfl, rfl, rfl, rfl, rfl⟩

theorem FileServerConnection.Ok.afterData {options : FileTransferOptions} {t : TransferState}
    {c b : FileServerConnection} (h : c.Ok options t) (hready : c.sessionReady = true)
    (hfin : c.finReceived = false) {active : ActiveTransfer} {hardware : Bool}
    (hb : b = beginChunk c active hardware) (bytes : Bytes) :
    (b.afterData hardware bytes).Ok options t := by
  obtain ⟨hactive, hstream, hid, hready', hfin'⟩ := beginChunk_same c active hardware
  rw [← hb] at hactive hstream hid hready' hfin'
  refine ⟨fun hidle => ?_, fun hs => ?_, fun _ => ?_, fun _ => hready'.trans hready,
    fun hf => ?_, fun hr => (by cases hr), fun hr => (by cases hr)⟩
  · have hactive' : b.chunkActive = false := hidle
    rw [hactive] at hactive'
    cases hactive'
  · have hs' : b.hasStream = true := hs
    show b.streamId < _ ∧ _
    rw [hstream] at hs'
    rw [show (b.afterData hardware bytes).streamId = b.streamId from rfl, hid]
    exact h.stream hs'
  · obtain ⟨hs, hne⟩ := h.ready hready
    exact ⟨hstream.trans hs, hne⟩
  · have hf' : b.finReceived = true := hf
    rw [hfin', hfin] at hf'
    cases hf'

theorem FileServerConnection.Ok.afterChunk {options : FileTransferOptions} {t : TransferState}
    {c : FileServerConnection} (h : c.Ok options t) (hfin : c.finReceived = false) :
    ({ c with
      writer := c.writer.flush.2
      chunkActive := false
      readState := .header } : FileServerConnection).Ok options t where
  idle _ := rfl
  stream := h.stream
  ready := h.ready
  chunk hchunk := by cases hchunk
  finished hfinished := by
    rw [show c.finReceived = true from hfinished] at hfin
    cases hfin
  reading hreading := by cases hreading
  readingChunk hreading := by cases hreading

/-- **A payload that is taken in** leaves the connections in order. -/
theorem processCompletedPayload_connection {options : FileTransferOptions} {index : Nat}
    {c c' : FileServerConnection} {t t' : TransferState} {bytes : Bytes} {w w' : World}
    (h : processCompletedPayload options index c t bytes w = (.ok (), c', t', w'))
    (hok : c.Ok options t) (hreading : c.readState = .payload) :
    t.Grows t' ∧ t'.finConnections = t.finConnections ∧ c'.Ok options t' ∧
      c'.hasStream = c.hasStream ∧ c'.streamId = c.streamId ∧
      c'.finReceived = c.finReceived := by
  have hstep := processCompletedPayload_step (S := ∅) options index c t bytes w
  rw [h] at hstep
  have hfin : c.finReceived = false := by
    apply eq_false_of_ne_true
    intro hfin
    obtain ⟨-, -, hdone⟩ := hok.finished hfin
    rw [hreading] at hdone
    cases hdone
  rw [processCompletedPayload] at h
  split at h
  · obtain ⟨hseen, hcount, hcases⟩ := processSessionInitPayload_connection h
    have hgrows : t.Grows t' := .of_step hstep hseen
    refine ⟨hgrows, hcount, ?_⟩
    rcases hcases with ⟨rfl, rfl⟩ | ⟨hactive, rfl⟩
    · exact ⟨hok, rfl, rfl, rfl⟩
    · exact ⟨(hok.grow hgrows).sessionInit hactive (hok.reading hreading).1 hfin, rfl, rfl, rfl⟩
  · rename_i htype
    obtain ⟨-, hready, -⟩ := hok.readingChunk hreading htype
    cases hactive : t.active with
    | none => exact absurd hactive (hok.ready hready).2
    | some active =>
        simp only [hactive] at h
        split at h
        · have hends := processChunkCompletePayload_ends c active bytes w
          generalize processChunkCompletePayload c active bytes w = result at h hends
          rcases result with ⟨e | c₁, s, w₁⟩
          · simp at h
          · simp only [Prod.mk.injEq, true_and] at h
            obtain ⟨rfl, rfl, -⟩ := h
            cases hends with
            | recorded hcheck hrun hchecksum hrecord hresult =>
                have hgrows : t.Grows { t with active := some { active with session := s } } :=
                  .of_step hstep rfl
                rcases hresult with ⟨_, _, _, h⟩ | ⟨-, h⟩
                · cases h
                · obtain rfl := Except.ok.inj h
                  exact ⟨hgrows, rfl, (hok.grow hgrows).afterChunk hfin, rfl, rfl, rfl⟩
        · have hends := processDataPayload_ends c active bytes w
          generalize processDataPayload c active bytes w = result at h hends
          rcases result with ⟨e | c₁, w₁⟩
          · simp at h
          · simp only [Prod.mk.injEq, true_and] at h
            obtain ⟨rfl, rfl, -⟩ := h
            cases hends with
            | written hb hnext hrun hresult =>
                rcases hresult with ⟨_, _, _, h⟩ | ⟨-, h⟩
                · cases h
                · obtain rfl := Except.ok.inj h
                  obtain ⟨-, hstream, hid, -, hfin'⟩ :=
                    beginChunk_same c active w.crc32cHardwareAvailable
                  rw [← hb] at hstream hid hfin'
                  exact ⟨.refl t, rfl, hok.afterData hready hfin hb bytes, hstream, hid, hfin'⟩

/-- What `validateStream` accepts: a stream nobody has, or the connection's
own. -/
inductive StreamTaken (c : FileServerConnection) (t : TransferState) (streamId : Nat) :
    FileServerConnection → TransferState → Prop
  | first (hstream : c.hasStream = false) (hseen : t.streamsSeen[streamId]? ≠ some true) :
      StreamTaken c t streamId { c with streamId := streamId, hasStream := true }
        { t with streamsSeen := t.streamsSeen.set streamId true }
  | again (hstream : c.hasStream = true) : StreamTaken c t streamId c t

theorem validateStream_ok {c c' : FileServerConnection} {t t' : TransferState}
    {streamId connections : Nat} (h : validateStream c t streamId connections = .ok (c', t')) :
    streamId < connections ∧ StreamTaken c t streamId c' t' := by
  simp only [validateStream, bind_eq_ok, check_eq_ok, not_le] at h
  obtain ⟨_, hlt, h⟩ := h
  refine ⟨hlt, ?_⟩
  split at h
  · rename_i hstream
    simp only [bind_eq_ok, check_eq_ok] at h
    obtain ⟨_, hseen, heq⟩ := h
    obtain ⟨rfl, rfl⟩ := Prod.mk.inj (Except.ok.inj heq)
    exact .first (by simpa using hstream) hseen
  · rename_i hstream
    simp only [bind_eq_ok, check_eq_ok] at h
    obtain ⟨_, -, heq⟩ := h
    obtain ⟨rfl, rfl⟩ := Prod.mk.inj (Except.ok.inj heq)
    exact .again (by simpa using hstream)

/-- The connection is ready for DATA, CHUNK_COMPLETE and FIN with this header. -/
structure HeaderReady (c : FileServerConnection) (t : TransferState) (header : FrameHeader) :
    Prop where
  ready : c.sessionReady = true
  total : ∀ active, t.active = some active → header.totalSize = active.init.totalSize

theorem validateTransferHeader_ok {c : FileServerConnection} {t : TransferState}
    {header : FrameHeader} {u : Unit} (h : validateTransferHeader c t header = .ok u) :
    HeaderReady c t header := by
  simp only [validateTransferHeader, bind_eq_ok, check_eq_ok] at h
  obtain ⟨_, hready, h⟩ := h
  refine ⟨hready, fun active hactive => ?_⟩
  simp only [hactive, bind_eq_ok, check_eq_ok] at h
  obtain ⟨_, htotal, -⟩ := h
  exact htotal

/-- What an accepted header does to its connection; `c` has its stream. -/
inductive HeaderTaken (c : FileServerConnection) (t : TransferState) (header : FrameHeader) :
    FileServerConnection → TransferState → Prop
  | sessionInit (htype : header.type = .sessionInit) :
      HeaderTaken c t header { c with currentHeader := header, readState := .payload } t
  | fin (htype : header.type = .fin) (hready : HeaderReady c t header)
      (hidle : c.chunkActive = false) :
      HeaderTaken c t header
        { c with currentHeader := header, finReceived := true, readState := .done }
        { t with finConnections := t.finConnections + 1 }
  | chunk (htype : header.type = .data ∨ header.type = .chunkComplete)
      (hready : HeaderReady c t header) :
      HeaderTaken c t header { c with currentHeader := header, readState := .payload } t

theorem processCompletedHeader_ok {options : FileTransferOptions} {c c' : FileServerConnection}
    {t t' : TransferState} {encoded : EncodedFrameHeader}
    (h : processCompletedHeader options c t encoded = .ok (c', t')) :
    ∃ header c₁ t₁, decodeFrameHeader encoded = .ok header ∧
      validateFrameHeader header options.bufferSize = .ok () ∧
      header.streamId.toNat < options.connections ∧
      StreamTaken c t header.streamId.toNat c₁ t₁ ∧ HeaderTaken c₁ t₁ header c' t' := by
  simp only [processCompletedHeader, bind_eq_ok, replying_eq_ok, check_eq_ok] at h
  obtain ⟨header, hdecode, _, hvalid, _, hserver, ⟨c₁, t₁⟩, hstream, h⟩ := h
  obtain ⟨hlt, htaken⟩ := validateStream_ok hstream
  refine ⟨header, c₁, t₁, hdecode, hvalid, hlt, htaken, ?_⟩
  split at h
  · rename_i htype
    obtain ⟨rfl, rfl⟩ := Prod.mk.inj (Except.ok.inj h)
    exact .sessionInit htype
  · rename_i hnotInit
    simp only [bind_eq_ok] at h
    obtain ⟨_, hready, h⟩ := h
    have hready' : HeaderReady c₁ t₁ header := by
      obtain ⟨hr, htotal⟩ := validateTransferHeader_ok hready
      exact ⟨hr, htotal⟩
    split at h
    · rename_i htype
      simp only [bind_eq_ok, check_eq_ok] at h
      obtain ⟨_, hidle, heq⟩ := h
      obtain ⟨rfl, rfl⟩ := Prod.mk.inj (Except.ok.inj heq)
      exact .fin htype hready' (by simpa using hidle)
    · rename_i hnotFin
      obtain ⟨rfl, rfl⟩ := Prod.mk.inj (Except.ok.inj h)
      refine .chunk ?_ hready'
      cases htype : header.type with
      | data => exact Or.inl rfl
      | chunkComplete => exact Or.inr rfl
      | sessionInit => exact absurd htype hnotInit
      | fin => exact absurd htype hnotFin
      | complete => exact absurd (Or.inl htype) hserver
      | error => exact absurd (Or.inr (Or.inl htype)) hserver
      | resumeResponse => exact absurd (Or.inr (Or.inr htype)) hserver

namespace Receiver

variable {r : Receiver}

theorem ConnectionsOk.stream (h : r.ConnectionsOk) {i streamId : Nat}
    {c c' : FileServerConnection} (hc : r.connections[i]? = some c) {t : TransferState}
    (hlt : streamId < r.options.connections) (htaken : StreamTaken c r.transfer streamId c' t) :
    ({ r with connections := r.connections.set i c', transfer := t } : Receiver).ConnectionsOk ∧
      c'.hasStream = true := by
  have hok := h.ok i c hc
  cases htaken with
  | first hstream hseen =>
      refine ⟨?_, rfl⟩
      have hgrows : r.transfer.Grows
          { r.transfer with streamsSeen := r.transfer.streamsSeen.set streamId true } := by
        refine ⟨fun j hj => ?_, List.length_set, fun h => h, fun _ _ h h' => ?_⟩
        · by_cases hij : j = streamId
          · subst hij
            exact List.getElem?_set_self (by rw [h.streams]; exact hlt)
          · show (r.transfer.streamsSeen.set streamId true)[j]? = some true
            rw [List.getElem?_set_ne (fun hji => hij hji.symm)]
            exact hj
        · rw [Option.some.inj (h.symm.trans h')]
      refine h.set hc hgrows ?_ (fun j d hj hd hsd _ => ?_) rfl
      · have hgrown := hok.grow hgrows
        refine ⟨hgrown.idle, fun _ => ⟨hlt, ?_⟩, fun hready => ?_, hgrown.chunk, hgrown.finished,
          fun hr => ?_, hgrown.readingChunk⟩
        · exact List.getElem?_set_self (by rw [h.streams]; exact hlt)
        · exact ⟨rfl, (hgrown.ready hready).2⟩
        · exact ⟨rfl, (hgrown.reading hr).2⟩
      · -- nobody else has this stream
        intro heq
        have hseen' := ((h.ok j d hd).stream hsd).2
        rw [← show streamId = d.streamId from heq] at hseen'
        exact hseen hseen'
  | again hstream =>
      refine ⟨?_, hstream⟩
      exact h.setSame hc (.refl _) hok rfl rfl rfl rfl

theorem ConnectionsOk.headerTaken (h : r.ConnectionsOk) {i : Nat} {c c' : FileServerConnection}
    (hc : r.connections[i]? = some c) (hstream : c.hasStream = true)
    (hfin : c.finReceived = false) {header : FrameHeader}
    (hvalid : validateFrameHeader header r.options.bufferSize = .ok ()) {t : TransferState}
    (htaken : HeaderTaken c r.transfer header c' t) :
    ({ r with connections := r.connections.set i c', transfer := t } : Receiver).ConnectionsOk := by
  have hok := h.ok i c hc
  have hunfinished : ∀ {p : Prop}, c.finReceived = true → p := by
    intro p hf
    rw [hfin] at hf
    cases hf
  cases htaken with
  | sessionInit htype =>
      refine h.setSame hc (.refl _) ?_ rfl rfl rfl rfl
      exact ⟨hok.idle, hok.stream, hok.ready, hok.chunk, fun hf => hunfinished hf,
        fun _ => ⟨hstream, hvalid⟩, fun _ hne => absurd htype hne⟩
  | fin htype hready hidle =>
      refine h.set hc ⟨fun _ h => h, rfl, fun h => h, fun _ _ h h' => ?_⟩ ?_
        (fun j d hj hd hsd _ => h.distinct i j c d hj.symm hc hd hstream hsd) ?_
      · rw [Option.some.inj (h.symm.trans h')]
      · exact ⟨hok.idle, hok.stream, hok.ready, hok.chunk, fun _ => ⟨hready.ready, hidle, rfl⟩,
          fun hr => (by cases hr), fun hr => (by cases hr)⟩
      · rw [hfin]
        rfl
  | chunk htype hready =>
      refine h.setSame hc (.refl _) ?_ rfl rfl rfl rfl
      exact ⟨hok.idle, hok.stream, hok.ready, hok.chunk, fun hf => hunfinished hf,
        fun _ => ⟨hstream, hvalid⟩, fun _ _ => ⟨htype, hready.ready, hready.total⟩⟩

/-- **A header that is accepted** leaves the connections in order. -/
theorem ConnectionsOk.header (h : r.ConnectionsOk) {i : Nat} {c c' : FileServerConnection}
    (hc : r.connections[i]? = some c) (hstate : c.readState = .header)
    {encoded : EncodedFrameHeader} {t : TransferState}
    (hresult : processCompletedHeader r.options c r.transfer encoded = .ok (c', t)) :
    ({ r with connections := r.connections.set i c', transfer := t } : Receiver).ConnectionsOk := by
  obtain ⟨header, c₁, t₁, -, hvalid, hlt, hstream, htaken⟩ := processCompletedHeader_ok hresult
  have hfin : c₁.finReceived = false := by
    have hc₁ : c₁.finReceived = c.finReceived := by
      cases hstream with
      | first _ _ => rfl
      | again _ => rfl
    rw [hc₁]
    apply eq_false_of_ne_true
    intro hfin
    obtain ⟨-, -, hdone⟩ := (h.ok i c hc).finished hfin
    rw [hstate] at hdone
    cases hdone
  obtain ⟨hfirst, hhas⟩ := h.stream hc hlt hstream
  obtain ⟨hi, -⟩ := List.getElem?_eq_some_iff.mp hc
  have hsecond := hfirst.headerTaken (List.getElem?_set_self hi) hhas hfin hvalid htaken
  rw [show (r.connections.set i c₁).set i c' = r.connections.set i c' from
    List.set_set ..] at hsecond
  exact hsecond

theorem ConnectionsOk.accept (h : r.ConnectionsOk)
    (hlt : r.connections.length < r.options.connections) :
    ({ r with connections := r.connections ++ [.new r.options] } : Receiver).ConnectionsOk := by
  have hcases : ∀ (j : Nat) (d : FileServerConnection),
      (r.connections ++ [.new r.options])[j]? = some d →
        r.connections[j]? = some d ∨ d = .new r.options := by
    intro j d hd
    rw [List.getElem?_append] at hd
    split at hd
    · exact Or.inl hd
    · refine Or.inr ?_
      exact List.mem_singleton.mp (List.mem_of_getElem? hd)
  have hnew : (FileServerConnection.new r.options).hasStream ≠ true := by
    intro h
    cases h
  refine ⟨fun j d hd => ?_, fun j k a b hjk ha hb hsa hsb => ?_, ?_, ?_, h.streams⟩
  · rcases hcases j d hd with hd | rfl
    · exact h.ok j d hd
    · exact ⟨fun _ => rfl, fun h => (by cases h), fun h => (by cases h), fun h => (by cases h),
        fun h => (by cases h), fun h => (by cases h), fun h => (by cases h)⟩
  · rcases hcases j a ha with ha | rfl
    · rcases hcases k b hb with hb | rfl
      · exact h.distinct j k a b hjk ha hb hsa hsb
      · exact absurd hsb hnew
    · exact absurd hsa hnew
  · show r.transfer.finConnections =
      (r.connections ++ [FileServerConnection.new r.options]).countP (·.finReceived)
    rw [List.countP_append, h.fins]
    rfl
  · show (r.connections ++ [_]).length ≤ r.options.connections
    rw [List.length_append]
    exact hlt

/-- All connections that are wanted have come, and each has sent its FIN. -/
theorem ConnectionsOk.finished (h : r.ConnectionsOk)
    (hfins : r.transfer.finConnections = r.options.connections) :
    r.connections.length = r.options.connections ∧
      ∀ c ∈ r.connections, c.finReceived = true := by
  have hcount := h.fins.symm.trans hfins
  have hle := List.countP_le_length (p := (·.finReceived)) (l := r.connections)
  have hlength : r.connections.length = r.options.connections := by
    have := h.accepted
    omega
  refine ⟨hlength, ?_⟩
  rw [← hlength, List.countP_eq_length] at hcount
  exact hcount

end Receiver

end FileTransferServer

end GridFlux
