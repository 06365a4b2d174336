/-
GridFlux/ResumeRuns.lean

A transfer over any number of attempts.  An attempt opens a session, new or
resumed from the manifest on disk, answers the streams of its sender and takes
in what they send, in any order; an interruption forgets the session and leaves
the files.  An attempt may have other options than the one before it, and may
find the manifest removed; but only the program writes the manifest file.  A
crash inside a save leaves the manifest file as a failing save does, so it is
not an event of its own.

Whatever happens, what is completed consists of whole chunks
(`RunInvariant.of_reachable`): the streams send whole chunks as long as whole
chunks are missing, and `verifyTempChunks` drops whole records.
-/
import GridFlux.FileDownloadClient
import GridFlux.FrameCodec
import GridFlux.SendPlan

namespace GridFlux

open HalfOpen TextCodec Transition

/-! ### Attempts -/

/-- One of the two receivers, with the loop of the sender it talks to. -/
structure Receiving (P : Type) where
  format : SessionFormat P
  parse : Bytes → Except Status (Manifest P)
  createNew : SessionRequest P → World → Effect (Session P)
  resume : SessionRequest P → World → Effect (Session P)
  sends : List ChunkRange → Nat → List CompletedRange → List SentRange

def uploads : Receiving TransferPaths :=
  ⟨transferSessionFormat, parseTransferManifest, TransferSession.createNew,
    TransferSession.resume, FileTransferClient.sendStream⟩

def downloads : Receiving DownloadPaths :=
  ⟨downloadSessionFormat, parseDownloadManifest, DownloadSession.createNew,
    DownloadSession.resume, FileDownloadSender.sendStream⟩

/-- A running attempt: what was asked for, the sender's plan, and the session
with the answers the streams have received. -/
structure Attempt (P : Type) where
  request : SessionRequest P
  chunks : List ChunkRange
  send : SendState P

/-- The files, and the attempt that is running, if any. -/
structure TransferRun (P : Type) where
  world : World
  attempt : Option (Attempt P)

inductive RunEvent (P : Type)
  | opened (request : SessionRequest P) (connections : Nat)
  | answered (streamId : Nat)
  | completed (streamId : Nat) (sent : SentRange) (op : SessionOp)
  /-- the receiver calls a method of its session by itself -/
  | called (op : SessionOp)
  | interrupted
  /-- the world goes on; the manifest file stays or is removed -/
  | elapsed (w : World)

namespace TransferRun

variable {P : Type}

/-- The run after a call of the session of `a`. -/
def call (run : TransferRun P) (format : SessionFormat P) (a : Attempt P) (op : SessionOp) :
    TransferRun P :=
  let result := op.run format a.send.session run.world
  ⟨result.2.2, some { a with send := { a.send with session := result.2.1 } }⟩

end TransferRun

/-- The runs of one receiver with one manifest file. -/
def resumeSystem {P : Type} (side : Receiving P) (manifestPath : Path) :
    System (TransferRun P) (RunEvent P) where
  initial run := run.attempt = none ∧ run.world.files manifestPath = none
  step event run run' :=
    match event with
    | .opened request connections =>
        run.attempt = none ∧ side.format.manifestPathFor request.paths = manifestPath ∧
          ∃ chunks s w, planChunks request.totalSize.toNat request.chunkSize.toNat connections =
              .ok chunks ∧
            (side.createNew request run.world = (.ok s, w) ∨
              side.resume request run.world = (.ok s, w)) ∧
            run' = ⟨w, some ⟨request, chunks, ⟨s, fun _ => none⟩⟩⟩
    | .answered streamId =>
        ∃ a, run.attempt = some a ∧ a.send.received streamId = none ∧
          run' = { run with attempt := some { a with send := a.send.answer streamId } }
    | .completed streamId sent op =>
        ∃ a, run.attempt = some a ∧ a.send.Sends (side.sends a.chunks) streamId sent op ∧
          run' = run.call side.format a op
    | .called op => ∃ a, run.attempt = some a ∧ op.record? = none ∧
        run' = run.call side.format a op
    | .interrupted => run' = { run with attempt := none }
    | .elapsed w =>
        (w.files manifestPath = run.world.files manifestPath ∨ w.files manifestPath = none) ∧
          run' = { run with world := w }

/-! ### Opening from what is on disk -/

/-- The records of a manifest are unions of chunks. -/
def Manifest.RecordsWhole {P : Type} (manifest : Manifest P) : Prop :=
  ∀ r ∈ manifest.verifiedChunks, CellUnion manifest.chunkSize manifest.totalSize
    (Set.Ico r.range.begin r.range.end)

/-- What a manifest file may hold: a manifest of the version that is written,
with whole chunks. -/
def Manifest.Written {P : Type} (format : SessionFormat P) (manifest : Manifest P) : Prop :=
  manifest.version = format.saveVersion manifest.version ∧ manifest.RecordsWhole

/-- What the invariant needs to know of a receiver. -/
structure Receiving.Lawful {P : Type} (side : Receiving P) : Prop where
  readsBack : ReadsBack side.format side.parse
  settles : VersionSettles side.format
  created : ∀ {request w s w'}, side.createNew request w = (.ok s, w') →
    World.Frame ∅ w w' ∧ (∃ hardware, s.Sound side.format hardware request) ∧ s.records = []
  /-- a resumed session has the records of a written manifest -/
  resumed : ∀ {request w s w'}, side.resume request w = (.ok s, w') →
    World.Frame ∅ w w' ∧ (∃ hardware, s.Sound side.format hardware request) ∧
      ∃ text manifest, w.files (side.format.manifestPathFor request.paths) = some text ∧
        side.parse text = .ok manifest ∧
        (manifest.Written side.format → s.manifest.RecordsWhole)
  /-- as long as whole chunks are missing, whole chunks are sent -/
  sendsWhole : ∀ {totalSize chunkSize connections chunks}, planChunks totalSize chunkSize
      connections = .ok chunks → ∀ {missing}, Canonical missing →
    CellUnion chunkSize totalSize (covered missing) → ∀ streamId,
    ∀ sent ∈ side.sends chunks streamId missing, sent.range.begin < sent.range.end ∧
      CellUnion chunkSize totalSize (Set.Ico sent.range.begin sent.range.end)

/-- A chunk of a plan is one cell. -/
theorem planChunks_cell {totalSize chunkSize connections : Nat} {chunks : List ChunkRange}
    (hplan : planChunks totalSize chunkSize connections = .ok chunks) {c : ChunkRange}
    (hc : c ∈ chunks) : CellUnion chunkSize totalSize (Set.Ico c.range.begin c.range.end) := by
  obtain ⟨hchunk, -⟩ := planChunks_eq hplan
  have hpos := Nat.pos_of_ne_zero hchunk
  obtain ⟨-, heq⟩ := (mem_planChunks hplan).mp hc
  generalize c.chunkId = i at heq
  obtain rfl := heq
  have hcell : ∀ x, x < totalSize → (x ∈ Set.Ico (i * chunkSize)
      (i * chunkSize + min chunkSize (totalSize - i * chunkSize)) ↔ x / chunkSize = i) := by
    intro x hx
    rw [Set.mem_Ico, Nat.div_eq_iff hpos]
    omega
  intro x y hx hy hxy
  apply (hcell x hx).trans
  rw [hxy]
  exact (hcell y hy).symm

theorem uploads_lawful : uploads.Lawful where
  readsBack := transfer_readsBack
  settles _ := rfl
  created {request w s w'} h := by
    obtain ⟨backend, now, missing, hnow, hbackend, rfl⟩ := TransferSession.createNew_ok h
    exact ⟨TransferSession.createNew_frame h, ⟨_, Session.fresh_sound hbackend hnow missing⟩, rfl⟩
  resumed {request w s w'} h := by
    have hopens : TransferSession.Opens w.crc32cHardwareAvailable request s :=
      ⟨w, w', rfl, Or.inr h⟩
    refine ⟨TransferSession.resume_frame h, ⟨_, hopens.sound.1⟩, ?_⟩
    obtain ⟨backend, now, text, manifest, manifest', completed, -, -, htext, hparse, haccept,
      rfl⟩ := TransferSession.resume_ok h
    refine ⟨text, manifest, htext, hparse, fun hwritten => ?_⟩
    simp only [TransferSession.accept, bind_eq_ok] at haccept
    obtain ⟨_, -, hrestore⟩ := haccept
    -- a written manifest has the current version, so its records are taken as they are
    have hversion : ¬manifest.version = kTransferManifestVersionV1 := by
      rw [hwritten.1]
      show ¬kTransferManifestVersion = kTransferManifestVersionV1
      decide
    simp only [TransferSession.restore, if_neg hversion, bind_eq_ok] at hrestore
    obtain ⟨_, -, heq⟩ := hrestore
    obtain ⟨rfl, -⟩ := Prod.mk.inj (Except.ok.inj heq)
    exact hwritten.2
  sendsWhole {totalSize chunkSize connections chunks} hplan {missing} hcanonical hcells streamId
      sent hsent := by
    obtain ⟨⟨hchunk, -⟩, hrange⟩ := FileTransferClient.mem_sendStream.mp hsent
    exact ⟨(mem_meets hrange).1,
      hcanonical.meets_cellUnion hcells (planChunks_cell hplan hchunk) hrange⟩

theorem downloads_lawful : downloads.Lawful where
  readsBack := download_readsBack
  settles _ := rfl
  created {request w s w'} h := by
    obtain ⟨backend, now, missing, hnow, hbackend, rfl⟩ := DownloadSession.createNew_ok h
    exact ⟨DownloadSession.createNew_frame h, ⟨_, Session.fresh_sound hbackend hnow missing⟩, rfl⟩
  resumed {request w s w'} h := by
    have hopens : DownloadSession.Opens w.crc32cHardwareAvailable request s :=
      ⟨w, w', rfl, Or.inr h⟩
    refine ⟨DownloadSession.resume_frame h, ⟨_, hopens.sound.1⟩, ?_⟩
    obtain ⟨backend, now, text, manifest, completed, -, -, htext, hparse, -, rfl⟩ :=
      DownloadSession.resume_ok h
    exact ⟨text, manifest, htext, hparse, fun hwritten => hwritten.2⟩
  sendsWhole {totalSize chunkSize connections chunks} hplan {missing} hcanonical hcells streamId
      sent hsent := by
    obtain ⟨⟨hchunk, -⟩, -, heq⟩ := FileDownloadSender.mem_sendStream.mp hsent
    rw [heq]
    exact ⟨(planChunks_bounds hplan hchunk).1, planChunks_cell hplan hchunk⟩

/-! ### Whole chunks are kept -/

theorem Manifest.RecordsWhole.congr {P : Type} {manifest manifest' : Manifest P}
    (h : manifest.RecordsWhole) (hchunk : manifest'.chunkSize = manifest.chunkSize)
    (htotal : manifest'.totalSize = manifest.totalSize)
    (hrecords : ∀ r ∈ manifest'.verifiedChunks, r ∈ manifest.verifiedChunks) :
    manifest'.RecordsWhole := by
  intro r hr
  rw [hchunk, htotal]
  exact h r (hrecords r hr)

theorem Session.recordsWhole_change {P : Type} {format : SessionFormat P} {op : SessionOp}
    {w : World} {s s₁ : Session P} (h : s.manifest.RecordsWhole)
    (hop : ∀ record, op.record? = some record →
      CellUnion s.manifest.chunkSize s.manifest.totalSize
        (Set.Ico record.range.begin record.range.end))
    (hc : Change format op w s s₁) : s₁.manifest.RecordsWhole := by
  cases hc with
  | unchanged => exact h
  | state state => exact h
  | append record completed hop' halg hnew hinsert =>
      intro r hr
      rcases List.mem_append.mp hr with hr | hr
      · exact h r hr
      · obtain rfl := List.mem_singleton.mp hr
        exact hop r hop'
  | drop tempPath v hop' halg hloop hremoved =>
      exact h.congr rfl rfl fun r hr => (Session.verifyLoop_kept_sublist hloop).1.subset hr

theorem Session.recordsWhole_settled {P : Type} {format : SessionFormat P} {s s' : Session P}
    (h : s.manifest.RecordsWhole) (hs : Session.Settled format s s') :
    s'.manifest.RecordsWhole := by
  cases hs with
  | kept stats => exact h
  | saved now hnow dirty stats =>
      exact h.congr rfl rfl fun r hr => (s.prepareSave_records_perm format now).mem_iff.mp hr

theorem Session.recordsWhole_run {P : Type} {format : SessionFormat P} {s : Session P}
    (h : s.manifest.RecordsWhole) {op : SessionOp}
    (hop : ∀ record, op.record? = some record →
      CellUnion s.manifest.chunkSize s.manifest.totalSize
        (Set.Ico record.range.begin record.range.end)) (w : World) :
    (op.run format s w).2.1.manifest.RecordsWhole := by
  obtain ⟨s₁, hchange, hends⟩ := op.run_cases format s w
  exact Session.recordsWhole_settled (Session.recordsWhole_change h hop hchange)
    (hends.settled format)

/-- What a call leaves in the manifest file: what was there, or a manifest of
the version that is written. -/
theorem Session.Sound.run_disk {P : Type} {format : SessionFormat P}
    {parse : Bytes → Except Status (Manifest P)} (hread : ReadsBack format parse)
    (hsettles : VersionSettles format) {hardware : Bool} {request : SessionRequest P}
    {s : Session P} (h : s.Sound format hardware request) {op : SessionOp} {w : World}
    (hwhole : (op.run format s w).2.1.manifest.RecordsWhole) :
    (op.run format s w).2.2.files (format.manifestPathFor request.paths) =
        w.files (format.manifestPathFor request.paths) ∨
      OnDisk parse (op.run format s w).2.2 (format.manifestPathFor request.paths)
        (Manifest.Written format) := by
  rcases h.run_stored hread op w with hsame | ⟨text, manifest, htext, hparse, hstores⟩
  · exact Or.inl hsame
  · obtain ⟨version, hversion⟩ := hstores.version
    refine Or.inr ⟨text, manifest, htext, hparse, ?_, ?_⟩
    · rw [hversion]
      exact (hsettles version).symm
    · obtain rfl := hstores.stored
      exact hwhole.congr rfl rfl fun r hr => (sortedRecords_perm _).mem_iff.mp hr

/-! ### The invariant of a run -/

/-- Missing ranges of whole chunks. -/
structure WholeMissing (chunkSize totalSize : Nat) (missing : List CompletedRange) : Prop where
  canonical : Canonical missing
  bounded : ∀ r ∈ missing, r.end ≤ totalSize
  cells : CellUnion chunkSize totalSize (covered missing)

theorem Session.Ok.wholeMissing {P : Type} {s : Session P} (h : s.Ok)
    (hwhole : s.manifest.RecordsWhole) :
    WholeMissing s.manifest.chunkSize s.manifest.totalSize s.missingRanges := by
  have hcovered : covered s.missingRanges =
      Set.Ico 0 s.manifest.totalSize \ covered s.completed.ranges :=
    RangeList.covered_missingRanges h.derived.wellFormed
  refine ⟨canonical_missingRanges h, fun r hr => ?_, ?_⟩
  · have hne := (canonical_missingRanges h).nonempty r hr
    have hlast : r.end - 1 ∈ covered s.missingRanges := ⟨r, hr, by omega, by omega⟩
    have hlt := ((mem_missingRanges h).mp hlast).1
    omega
  · rw [hcovered, h.derived.covered_eq]
    refine CellUnion.diff (CellUnion.covered fun r hr => ?_)
    obtain ⟨record, hrecord, rfl⟩ := List.mem_map.mp hr
    exact hwhole record hrecord

structure AttemptInvariant {P : Type} (side : Receiving P) (manifestPath : Path)
    (a : Attempt P) : Prop where
  sound : ∃ hardware, a.send.session.Sound side.format hardware a.request
  path : side.format.manifestPathFor a.request.paths = manifestPath
  plan : ∃ connections, planChunks a.request.totalSize.toNat a.request.chunkSize.toNat
    connections = .ok a.chunks
  whole : a.send.session.manifest.RecordsWhole
  received : ∀ streamId missing, a.send.received streamId = some missing →
    WholeMissing a.request.chunkSize.toNat a.request.totalSize.toNat missing

/-- **The invariant of a run**: only whole chunks are recorded, on disk and in
memory, and the streams have been told of whole chunks. -/
structure RunInvariant {P : Type} (side : Receiving P) (manifestPath : Path)
    (run : TransferRun P) : Prop where
  disk : run.world.files manifestPath = none ∨
    OnDisk side.parse run.world manifestPath (Manifest.Written side.format)
  attempt : ∀ a, run.attempt = some a → AttemptInvariant side manifestPath a

section Invariant

variable {P : Type} {side : Receiving P} {manifestPath : Path}

theorem AttemptInvariant.wholeMissing {a : Attempt P} (h : AttemptInvariant side manifestPath a) :
    WholeMissing a.request.chunkSize.toNat a.request.totalSize.toNat
      a.send.session.missingRanges := by
  obtain ⟨hardware, hsound⟩ := h.sound
  rw [← hsound.opened.chunkSize, ← hsound.opened.totalSize]
  exact hsound.ok.wholeMissing h.whole

theorem RunInvariant.call (hside : side.Lawful) {run : TransferRun P}
    (h : RunInvariant side manifestPath run) {a : Attempt P} (ha : run.attempt = some a)
    {op : SessionOp}
    (hop : ∀ record, op.record? = some record →
      CellUnion a.request.chunkSize.toNat a.request.totalSize.toNat
        (Set.Ico record.range.begin record.range.end)) :
    RunInvariant side manifestPath (run.call side.format a op) := by
  have hinv := h.attempt a ha
  obtain ⟨hardware, hsound⟩ := hinv.sound
  have hwhole : (op.run side.format a.send.session run.world).2.1.manifest.RecordsWhole := by
    refine Session.recordsWhole_run hinv.whole (fun record hrecord => ?_) run.world
    rw [hsound.opened.chunkSize, hsound.opened.totalSize]
    exact hop record hrecord
  constructor
  · have hdisk := hsound.run_disk hside.readsBack hside.settles hwhole
    rw [hinv.path] at hdisk
    rcases hdisk with hsame | hwritten
    · exact h.disk.imp hsame.trans fun hdisk => hdisk.congr hsame
    · exact Or.inr hwritten
  · intro a' ha'
    obtain rfl := Option.some.inj ha'
    exact ⟨⟨hardware, hsound.run op run.world⟩, hinv.path, hinv.plan, hwhole, hinv.received⟩

theorem RunInvariant.opened (hside : side.Lawful) {run : TransferRun P}
    (h : RunInvariant side manifestPath run) {request : SessionRequest P}
    (hpath : side.format.manifestPathFor request.paths = manifestPath) {connections : Nat}
    {chunks : List ChunkRange} {s : Session P} {w : World}
    (hplan : planChunks request.totalSize.toNat request.chunkSize.toNat connections = .ok chunks)
    (hopen : side.createNew request run.world = (.ok s, w) ∨
      side.resume request run.world = (.ok s, w)) :
    RunInvariant side manifestPath ⟨w, some ⟨request, chunks, ⟨s, fun _ => none⟩⟩⟩ := by
  have hspec : World.Frame ∅ run.world w ∧ (∃ hardware, s.Sound side.format hardware request) ∧
      s.manifest.RecordsWhole := by
    rcases hopen with hcreate | hresume
    · obtain ⟨hframe, hsound, hnil⟩ := hside.created hcreate
      refine ⟨hframe, hsound, fun r hr => ?_⟩
      have hmem : r ∈ s.records := hr
      rw [hnil] at hmem
      cases hmem
    · obtain ⟨hframe, hsound, text, manifest, htext, hparse, hwhole⟩ := hside.resumed hresume
      refine ⟨hframe, hsound, hwhole ?_⟩
      -- what was read is what the program had written
      rw [hpath] at htext
      rcases h.disk with hnone | ⟨text', manifest', htext', hparse', hwritten⟩
      · rw [hnone] at htext
        cases htext
      · obtain rfl := Option.some.inj (htext.symm.trans htext')
        obtain rfl := Except.ok.inj (hparse.symm.trans hparse')
        exact hwritten
  obtain ⟨hframe, hsound, hwhole⟩ := hspec
  have hfile : w.files manifestPath = run.world.files manifestPath :=
    hframe.files _ (Set.notMem_empty _)
  constructor
  · exact h.disk.imp hfile.trans fun hdisk => hdisk.congr hfile
  · intro a ha
    obtain rfl := Option.some.inj ha
    refine ⟨hsound, hpath, ⟨connections, hplan⟩, hwhole, fun streamId missing hreceived => ?_⟩
    cases hreceived

theorem RunInvariant.step (hside : side.Lawful) {event : RunEvent P} {run run' : TransferRun P}
    (h : RunInvariant side manifestPath run)
    (hstep : (resumeSystem side manifestPath).step event run run') :
    RunInvariant side manifestPath run' := by
  cases event with
  | opened request connections =>
      obtain ⟨-, hpath, chunks, s, w, hplan, hopen, rfl⟩ := hstep
      exact h.opened hside hpath hplan hopen
  | answered streamId =>
      obtain ⟨a, ha, -, rfl⟩ := hstep
      have hinv := h.attempt a ha
      refine ⟨h.disk, fun a' ha' => ?_⟩
      obtain rfl := Option.some.inj ha'
      refine ⟨hinv.sound, hinv.path, hinv.plan, hinv.whole, fun other missing hother => ?_⟩
      by_cases heq : other = streamId
      · subst heq
        rw [SendState.answer_received_self] at hother
        obtain rfl := Option.some.inj hother
        exact hinv.wholeMissing
      · rw [SendState.answer_received_of_ne _ heq] at hother
        exact hinv.received other missing hother
  | completed streamId sent op =>
      obtain ⟨a, ha, ⟨⟨missing, hmissing, hsent⟩, checksum, hop⟩, rfl⟩ := hstep
      have hinv := h.attempt a ha
      obtain ⟨connections, hplan⟩ := hinv.plan
      have hreceived := hinv.received streamId missing hmissing
      obtain ⟨hne, hcells⟩ := hside.sendsWhole hplan hreceived.canonical hreceived.cells streamId
        sent hsent
      apply h.call hside ha
      intro record hrecord
      obtain rfl := Option.some.inj (hop.symm.trans hrecord)
      show CellUnion _ _ (Set.Ico sent.range.begin
        (sent.range.begin + (sent.range.end - sent.range.begin)))
      rw [Nat.add_sub_cancel' hne.le]
      exact hcells
  | called op =>
      obtain ⟨a, ha, hop, rfl⟩ := hstep
      apply h.call hside ha
      intro record hrecord
      rw [hop] at hrecord
      cases hrecord
  | interrupted =>
      obtain rfl := hstep
      exact ⟨h.disk, fun a ha => by cases ha⟩
  | elapsed w =>
      obtain ⟨hfile, rfl⟩ := hstep
      refine ⟨?_, h.attempt⟩
      rcases hfile with hsame | hnone
      · exact h.disk.imp hsame.trans fun hdisk => hdisk.congr hsame
      · exact Or.inl hnone

theorem RunInvariant.of_reachable (hside : side.Lawful) {run : TransferRun P}
    (h : (resumeSystem side manifestPath).Reachable run) :
    RunInvariant side manifestPath run := by
  apply h.invariant
  · rintro run ⟨hattempt, hfile⟩
    refine ⟨Or.inl hfile, fun a ha => ?_⟩
    rw [hattempt] at ha
    cases ha
  · intro event run run' _ hinv hstep
    exact hinv.step hside hstep

/-- **Fragmentation.**  At most every other chunk is a missing range of its
own. -/
theorem AttemptInvariant.missing_length_le {a : Attempt P}
    (h : AttemptInvariant side manifestPath a) :
    a.send.session.missingRanges.length ≤ (a.chunks.length + 1) / 2 := by
  obtain ⟨connections, hplan⟩ := h.plan
  obtain ⟨hchunk, hchunks⟩ := planChunks_eq hplan
  have hmissing := h.wholeMissing
  rw [hchunks, List.length_map, List.length_range]
  refine hmissing.canonical.length_le hmissing.bounded hmissing.cells fun x hx => ?_
  exact (lt_chunkCount hchunk).mpr ((Nat.div_mul_le_self x _).trans_lt hx)

end Invariant

/-! ### The reply to a SessionInit -/

/-- A reply `sendResumeResponse` makes from these missing ranges with this
buffer: there is one exactly when it fits, and a peer takes it in exactly when
it fits the buffer of the peer. -/
structure Replies {ε : Type} (missing : List CompletedRange) (bufferSize : UInt32)
    (reply : Except ε (FrameHeader × Bytes)) : Prop where
  sent_iff : (∃ frame, reply = .ok frame) ↔ 8 + 16 * missing.length ≤ bufferSize.toNat
  accepted_iff : ∀ header payload, reply = .ok (header, payload) → ∀ peerBufferSize : UInt32,
    validateFrameHeader header peerBufferSize = .ok () ↔
      8 + 16 * missing.length ≤ peerBufferSize.toNat
  decoded : ∀ header payload, reply = .ok (header, payload) →
    payload.length = header.payloadSize.toNat ∧
      decodeResumeResponsePayload payload = .ok ⟨.ok, missing⟩

/-- What both receivers make of their missing ranges; they differ in the errors
they report. -/
def replyFrame {ε : Type} (missing : List CompletedRange) (bufferSize : UInt32)
    (tooMany : Status → ε) (tooLong : ε) (streamId : UInt32) (totalSize : UInt64) :
    Except ε (FrameHeader × Bytes) := do
  let payload ← (encodeResumeResponsePayload ⟨.ok, missing⟩).mapError tooMany
  require (payload.length ≤ bufferSize.toNat) tooLong
  return ({ type := .resumeResponse, streamId := streamId,
            payloadSize := UInt32.ofNat payload.length, totalSize := totalSize }, payload)

section Reply

variable {ε : Type} {missing : List CompletedRange} {bufferSize : UInt32} {tooMany : Status → ε}
  {tooLong : ε} {streamId : UInt32} {totalSize : UInt64}

theorem replyFrame_eq_ok {header : FrameHeader} {payload : Bytes} :
    replyFrame missing bufferSize tooMany tooLong streamId totalSize = .ok (header, payload) ↔
      encodeResumeResponsePayload ⟨.ok, missing⟩ = .ok payload ∧
        payload.length ≤ bufferSize.toNat ∧
        header = { type := .resumeResponse, streamId := streamId,
                   payloadSize := UInt32.ofNat payload.length, totalSize := totalSize } := by
  rw [replyFrame]
  cases encodeResumeResponsePayload ⟨.ok, missing⟩ with
  | error e =>
      constructor
      · intro h
        cases h
      · rintro ⟨h, -⟩
        cases h
  | ok data =>
      simp only [Except.mapError, ok_bind, bind_eq_ok, require_eq_ok]
      constructor
      · rintro ⟨-, hlength, heq⟩
        obtain ⟨rfl, rfl⟩ := Prod.mk.inj (Except.ok.inj heq)
        exact ⟨rfl, hlength, rfl⟩
      · rintro ⟨hdata, hlength, rfl⟩
        obtain rfl := Except.ok.inj hdata
        exact ⟨(), hlength, rfl⟩

theorem exists_encode (hcount : missing.length ≤ (2 ^ 32 - 1 - 8) / 16) :
    ∃ data, encodeResumeResponsePayload ⟨.ok, missing⟩ = .ok data := by
  rw [encodeResumeResponsePayload, require_pos hcount]
  exact ⟨_, rfl⟩

theorem length_reply {payload : Bytes}
    (h : encodeResumeResponsePayload ⟨.ok, missing⟩ = .ok payload) :
    payload.length = 8 + missing.length * 16 := by
  have hlength := length_encodeResumeResponsePayload h
  exact hlength

theorem replyFrame_replies (hok : ∀ r ∈ missing, r.begin < r.end ∧ r.end < 2 ^ 64) :
    Replies missing bufferSize
      (replyFrame missing bufferSize tooMany tooLong streamId totalSize) := by
  have hbuffer := bufferSize.toNat_lt
  refine ⟨⟨?_, fun hfits => ?_⟩, fun header payload h peerBufferSize => ?_,
    fun header payload h => ?_⟩
  · rintro ⟨⟨header, payload⟩, h⟩
    obtain ⟨hencode, hle, -⟩ := replyFrame_eq_ok.mp h
    have hlength := length_reply hencode
    omega
  · obtain ⟨data, hencode⟩ := exists_encode (show missing.length ≤ (2 ^ 32 - 1 - 8) / 16 by omega)
    have hlength := length_reply hencode
    exact ⟨(_, data), replyFrame_eq_ok.mpr ⟨hencode, by omega, rfl⟩⟩
  · obtain ⟨hencode, hle, rfl⟩ := replyFrame_eq_ok.mp h
    have hlength := length_reply hencode
    have hsize : (UInt32.ofNat payload.length).toNat = payload.length :=
      UInt32.toNat_ofNat_of_lt' (by show _ < 2 ^ 32; omega)
    have hne : UInt32.ofNat payload.length ≠ 0 := by
      intro hzero
      rw [hzero] at hsize
      have hz : (0 : UInt32).toNat = 0 := rfl
      omega
    simp only [validateFrameHeader, bind_eq_ok, require_eq_ok]
    constructor
    · rintro ⟨_, -, _, -, _, -, _, -, _, hpeer, -⟩
      rw [UInt32.le_iff_toNat_le, hsize] at hpeer
      omega
    · intro hpeer
      refine ⟨(), trivial, (), trivial, (), trivial, (), trivial, (), ?_, (), hne, trivial⟩
      rw [UInt32.le_iff_toNat_le, hsize]
      omega
  · obtain ⟨hencode, hle, rfl⟩ := replyFrame_eq_ok.mp h
    exact ⟨(UInt32.toNat_ofNat_of_lt' (by show _ < 2 ^ 32; omega)).symm,
      decodeResumeResponsePayload_encode hok hencode⟩

end Reply

theorem FileTransferServer.resumeResponse_eq (options : FileTransferOptions)
    (connection : FileServerConnection) (active : ActiveTransfer) :
    resumeResponse options connection active =
      replyFrame active.session.missingRanges options.bufferSize
        (fun status => ⟨some .internalError, status⟩)
        ⟨some .internalError, .runtimeError (ascii "resume response exceeds buffer size")⟩
        (UInt32.ofNat connection.streamId) active.init.totalSize := rfl

theorem FileDownloadClient.resumeResponse_eq (options : FileDownloadOptions) (streamId : Nat)
    (totalSize : UInt64) (missing : List CompletedRange) :
    resumeResponse options streamId totalSize missing =
      replyFrame missing options.bufferSize id
        (.runtimeError (ascii "ResumeResponse payload exceeds buffer size"))
        (UInt32.ofNat streamId) totalSize := by
  rw [resumeResponse, replyFrame]
  cases encodeResumeResponsePayload ⟨.ok, missing⟩ with
  | error e => rfl
  | ok payload => rfl

/-- What is known of the reply in an attempt: there are at most half as many
missing ranges as chunks, rounded up; and the reply is made and taken in if the
buffers have room for so many. -/
structure ReplyBounded {P ε : Type} (a : Attempt P) (bufferSize : UInt32)
    (reply : Except ε (FrameHeader × Bytes)) : Prop where
  few : a.send.session.missingRanges.length ≤ (a.chunks.length + 1) / 2
  replies : Replies a.send.session.missingRanges bufferSize reply
  fits : 8 + 16 * ((a.chunks.length + 1) / 2) ≤ bufferSize.toNat → ∃ header payload,
    reply = .ok (header, payload) ∧ ∀ peerBufferSize : UInt32,
      8 + 16 * ((a.chunks.length + 1) / 2) ≤ peerBufferSize.toNat →
        validateFrameHeader header peerBufferSize = .ok ()

theorem AttemptInvariant.missing_ok {P : Type} {side : Receiving P} {manifestPath : Path}
    {a : Attempt P} (h : AttemptInvariant side manifestPath a) :
    ∀ r ∈ a.send.session.missingRanges, r.begin < r.end ∧ r.end < 2 ^ 64 := by
  intro r hr
  have hmissing := h.wholeMissing
  exact ⟨hmissing.canonical.nonempty r hr,
    (hmissing.bounded r hr).trans_lt a.request.totalSize.toNat_lt⟩

theorem AttemptInvariant.replyBounded {P ε : Type} {side : Receiving P} {manifestPath : Path}
    {a : Attempt P} (h : AttemptInvariant side manifestPath a) {bufferSize : UInt32}
    {reply : Except ε (FrameHeader × Bytes)}
    (hreply : Replies a.send.session.missingRanges bufferSize reply) :
    ReplyBounded a bufferSize reply := by
  have hfew := h.missing_length_le
  refine ⟨hfew, hreply, fun hroom => ?_⟩
  obtain ⟨⟨header, payload⟩, hframe⟩ := hreply.sent_iff.mpr (by omega)
  refine ⟨header, payload, hframe, fun peerBufferSize hpeer => ?_⟩
  exact (hreply.accepted_iff header payload hframe peerBufferSize).mpr (by omega)

/-- **When a resume reply fits.**  In every state of every run of attempts, on
either side, at most every other chunk of the plan is a missing range of its
own; a reply is made exactly when the buffer has room for the missing ranges,
and always when it has room for half the chunks. -/
theorem resume_reply_bounded (manifestPath : Path) :
    (∀ run a, (resumeSystem uploads manifestPath).Reachable run →
      run.attempt = some a → ∀ options connection init, ReplyBounded a options.bufferSize
        (FileTransferServer.resumeResponse options connection ⟨init, a.send.session⟩)) ∧
    (∀ run a, (resumeSystem downloads manifestPath).Reachable run →
      run.attempt = some a → ∀ options streamId totalSize, ReplyBounded a options.bufferSize
        (FileDownloadClient.resumeResponse options streamId totalSize
          a.send.session.missingRanges)) := by
  constructor
  · intro run a hrun ha options connection init
    have hinv := (RunInvariant.of_reachable uploads_lawful hrun).attempt a ha
    rw [FileTransferServer.resumeResponse_eq]
    exact hinv.replyBounded (replyFrame_replies hinv.missing_ok)
  · intro run a hrun ha options streamId totalSize
    have hinv := (RunInvariant.of_reachable downloads_lawful hrun).attempt a ha
    rw [FileDownloadClient.resumeResponse_eq]
    exact hinv.replyBounded (replyFrame_replies hinv.missing_ok)

/-! ### A reply that does not fit -/

/-- Two streams upload three chunks; the stream of the first and third chunk
stalls, the other one ends, the receiver saves and is interrupted. -/
def stalledAttempt : Attempt TransferPaths :=
  ⟨threeChunks, threeChunksPlan,
    SendState.answer ⟨.fresh transferSessionFormat threeChunks .software 0 1, fun _ => none⟩ 1⟩

def stalledRecorded : TransferRun TransferPaths :=
  TransferRun.call ⟨.withFiles fun _ => none, some stalledAttempt⟩ transferSessionFormat
    stalledAttempt (recordZero 1)

def stalledSaved : SessionResult TransferPaths :=
  SessionOp.save.run transferSessionFormat
    (recordZero 1 |>.run transferSessionFormat stalledAttempt.send.session
      (.withFiles fun _ => none)).2.1
    stalledRecorded.world

theorem stalled_reachable :
    (resumeSystem uploads (manifestPathForOutput (ascii "o"))).Reachable
      ⟨stalledSaved.2.2, none⟩ := by
  let M := resumeSystem uploads (manifestPathForOutput (ascii "o"))
  let opened : Attempt TransferPaths := ⟨threeChunks, threeChunksPlan,
    ⟨.fresh transferSessionFormat threeChunks .software 0 1, fun _ => none⟩⟩
  let recorded : Attempt TransferPaths := { stalledAttempt with send := { stalledAttempt.send with
    session := (recordZero 1 |>.run transferSessionFormat stalledAttempt.send.session
      (.withFiles fun _ => none)).2.1 } }
  have hopen : M.step (.opened threeChunks 2) ⟨.withFiles fun _ => none, none⟩
      ⟨.withFiles fun _ => none, some opened⟩ :=
    ⟨rfl, rfl, threeChunksPlan, _, _, by decide, Or.inl rfl, rfl⟩
  have hanswer : M.step (.answered 1) ⟨.withFiles fun _ => none, some opened⟩
      ⟨.withFiles fun _ => none, some stalledAttempt⟩ := ⟨opened, rfl, rfl, rfl⟩
  have hrecord : M.step (.completed 1 ⟨⟨1, 1, 1, 1⟩, ⟨1, 2⟩⟩ (recordZero 1))
      ⟨.withFiles fun _ => none, some stalledAttempt⟩ stalledRecorded :=
    ⟨stalledAttempt, rfl, ⟨⟨_, rfl, by decide⟩, checksumOf .crc32c [0], rfl⟩, rfl⟩
  have hsave : M.step (.called .save) stalledRecorded
      (stalledRecorded.call transferSessionFormat recorded .save) := ⟨recorded, rfl, rfl, rfl⟩
  have hinterrupt : M.step .interrupted
      (stalledRecorded.call transferSessionFormat recorded .save) ⟨stalledSaved.2.2, none⟩ := rfl
  exact .step (.step (.step (.step (.step (.initial ⟨rfl, rfl⟩) hopen) hanswer) hrecord) hsave)
    hinterrupt

/-- The attempt to resume is refused by a receiver with a buffer of 39 bytes,
in which every frame of the transfer but this reply has room. -/
theorem resume_reply_refused :
    ∃ run a, (resumeSystem uploads (manifestPathForOutput (ascii "o"))).Reachable run ∧
      run.attempt = some a ∧ ∀ options connection init, options.bufferSize = 39 →
        FileTransferServer.resumeResponse options connection ⟨init, a.send.session⟩ =
          .error ⟨some .internalError,
            .runtimeError (ascii "resume response exceeds buffer size")⟩ := by
  have hmissing : (TransferSession.resume threeChunks stalledSaved.2.2).1.map
      Session.missingRanges = .ok [⟨0, 1⟩, ⟨2, 3⟩] := by decide +kernel
  rcases hresume : TransferSession.resume threeChunks stalledSaved.2.2 with ⟨e | s, w⟩
  · rw [hresume] at hmissing
    cases hmissing
  · rw [hresume] at hmissing
    have hranges : s.missingRanges = [⟨0, 1⟩, ⟨2, 3⟩] := Except.ok.inj hmissing
    have hresumed : uploads.resume threeChunks stalledSaved.2.2 = (.ok s, w) := by
      rw [show uploads.resume = TransferSession.resume from rfl, hresume]
    have hopen : (resumeSystem uploads (manifestPathForOutput (ascii "o"))).step
        (.opened threeChunks 2) ⟨stalledSaved.2.2, none⟩
        ⟨w, some ⟨threeChunks, threeChunksPlan, ⟨s, fun _ => none⟩⟩⟩ :=
      ⟨rfl, rfl, threeChunksPlan, s, w, by decide, Or.inr hresumed, rfl⟩
    refine ⟨_, _, stalled_reachable.step hopen, rfl, fun options connection init hbuffer => ?_⟩
    rw [FileTransferServer.resumeResponse_eq]
    show replyFrame s.missingRanges options.bufferSize _ _ _ _ = _
    rw [hranges, hbuffer]
    rfl

end GridFlux
