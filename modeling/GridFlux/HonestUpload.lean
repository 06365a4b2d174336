/-
GridFlux/HonestUpload.lean

A receiver whose payloads all come from one client.

When every payload the receiver takes in is one the client may send
(`UploadClient.Delivers`), its session is the client's transfer, what a
connection gathers of a chunk is a stretch of the source, so every record has the
checksum of the source, and the temp file does not grow beyond the source
(`HonestRun`).  At the rename the temp file is then the source itself
(`Complete.source`).
-/
import GridFlux.UploadClient
import GridFlux.UploadIntegrity
import GridFlux.UploadTempSize

namespace GridFlux

open HalfOpen TextCodec Transition SharedFile

namespace UploadClient

open FileTransferServer

variable (client : UploadClient)

/-- The record has the checksum of the source. -/
def Recorded (_ _ : Nat) (record : ChunkChecksumRecord) : Prop :=
  record.checksum =
    checksumOf .crc32c (World.slice client.source record.offset record.length)

/-- The chunks of the source. -/
def chunks : Set (Segment UInt8) :=
  { seg | ∃ id, id * client.chunkSize.toNat < client.source.length ∧
    seg = ⟨id * client.chunkSize.toNat, World.slice client.source (id * client.chunkSize.toNat)
      (min client.chunkSize.toNat (client.source.length - id * client.chunkSize.toNat))⟩ }

/-- A payload that the event completes is one of the client's. -/
def Delivers (r : Receiver) (event : Event) : Prop :=
  ∀ i c bytes, r.takes event = some (i, c, bytes) → client.Honest c.currentHeader bytes

/-- What each connection has gathered of its chunk is a stretch of the source. -/
def Gathered (r : Receiver) (gathered : Nat → Bytes) : Prop :=
  ∀ i chunk, r.chunks i = some chunk →
    gathered i = World.slice client.source chunk.offset (gathered i).length

/-- What holds of a receiver when every payload comes from the client. -/
structure HonestReceiver (run : UploadRun) (r : Receiver) : Prop where
  inits : ∀ a, r.transfer.active = some a → ∃ resume, a.init = client.sessionInit resume
  records : RecordsAre client.Recorded r.options r.transfer.active run.world
  gathered : r.phase = .receiving → ∀ i chunk, r.chunks i = some chunk →
    run.gathered i = World.slice client.source chunk.offset (run.gathered i).length

/-- What holds of a run when every payload comes from the client. -/
structure HonestRun (path : Path) (run : UploadRun) : Prop where
  fits : run.world.Fits (tempPathForOutput path client.transferId) client.source.length
  disk : DiskSays parseTransferManifest run.world (manifestPathForOutput path)
    (Manifest.RecordsAre client.Recorded)
  receiver : ∀ r, run.receiver = some r → client.HonestReceiver run r

variable {client} {path : Path} {run : UploadRun} {r : Receiver} {event : Event}

theorem uses_sessionInit {options : FileTransferOptions} (hpath : options.path = path)
    (resume : Bool) :
    Uses options (client.sessionInit resume) (tempPathForOutput path client.transferId)
      client.source.length :=
  ⟨by rw [hpath]; rfl, client.totalSize_toNat⟩

/-- A chunk that a connection ends was gathered from the source. -/
theorem HonestReceiver.recorded (h : client.HonestReceiver run r) (hok : ReceiverOk path run r)
    (hphase : r.phase = .receiving) (event : Event) : r.Records client.Recorded event := by
  intro i c bytes active htakes hactive payload hcheck hchecksum
  obtain ⟨hconnections, htemp⟩ := hok.receiving hphase
  obtain ⟨content, -, hfileOk⟩ := htemp active hactive
  obtain ⟨-, hc, -⟩ := Receiver.takes_ok htakes
  have hchunk := Receiver.chunks_eq hc
  have hchecked := checkChunkComplete_ok hcheck
  rw [FileServerConnection.chunkState, if_pos hchecked.active'] at hchunk
  obtain ⟨written, hgathers, -, -⟩ := hfileOk.receiving i _ hchunk
  have hend : c.activeChunkNextOffset = c.activeChunkOffset + (run.gathered i).length :=
    hgathers.next_eq
  have hlength : payload.length.toNat = (run.gathered i).length := by
    rw [hchecked.length, hend, Nat.add_sub_cancel_left]
  show payload.checksum = checksumOf .crc32c
    (World.slice client.source payload.offset.toNat payload.length.toNat)
  rw [hchecked.offset, hlength, ← h.gathered hphase i _ hchunk, ← hchecksum]
  exact hgathers.finalize

/-- The bytes of a DATA frame continue the stretch of the source. -/
theorem Honest.gatheredWith {c b : FileServerConnection} {active : ActiveTransfer} {bytes : Bytes}
    {hardware : Bool} {i : Nat} (h : client.Honest c.currentHeader bytes)
    (htype : c.currentHeader.type = .data) (hb : b = beginChunk c active hardware)
    (hnext : b.activeChunkNextOffset = b.currentHeader.offset.toNat)
    (hgathered : c.chunkActive = true →
      run.gathered i = World.slice client.source c.activeChunkOffset (run.gathered i).length ∧
        c.activeChunkNextOffset = c.activeChunkOffset + (run.gathered i).length) :
    run.gatheredWith i c bytes =
      World.slice client.source b.activeChunkOffset (run.gatheredWith i c bytes).length := by
  have hbytes := h.data htype
  have hheader := beginChunk_header c active hardware
  rw [← hb] at hheader
  rw [← hheader, ← hnext] at hbytes
  rw [UploadRun.gatheredWith]
  cases hin : c.chunkActive with
  | true =>
      obtain ⟨hold, hend⟩ := hgathered hin
      rw [beginChunk, if_pos hin] at hb
      subst hb
      rw [if_pos rfl, List.length_append, ← World.slice_append, ← hold, ← hend, ← hbytes]
  | false =>
      rw [beginChunk, if_neg (by rw [hin]; exact Bool.false_ne_true)] at hb
      subst hb
      rw [if_neg Bool.false_ne_true]
      exact hbytes

/-- **An event with a payload of the client** goes on from there. -/
theorem Gathered.step (h : client.Gathered r run.gathered) (hconnections : r.ConnectionsOk)
    (htemp : TempOk run.contents run.gathered r run.world) (hphase : r.phase = .receiving)
    (hdelivers : client.Delivers r event)
    (hphase' : (r.step event run.world).1.phase = .receiving) :
    client.Gathered (r.step event run.world).1 (run.gather r event) := by
  have hstep : r.step event run.world = r.receive event run.world := by
    unfold Receiver.step
    rw [hphase]
  have hends := r.receive_ends event run.world
  have hkept : r.takes event = none → run.gather r event = run.gathered := by
    intro htakes
    rw [UploadRun.gather, htakes]
  rw [hstep] at hphase' ⊢
  generalize r.receive event run.world = result at hends hphase' ⊢
  obtain ⟨r', w'⟩ := result
  show ∀ j chunk, r'.chunks j = some chunk → run.gather r event j =
    World.slice client.source chunk.offset (run.gather r event j).length
  cases hends with
  | kept htakes =>
      rw [hkept htakes]
      exact h
  | accepted hevent hlt =>
      subst hevent
      rw [hkept rfl, Receiver.chunks_accept]
      exact h
  | header hevent hc hstate hresult =>
      subst hevent
      rw [hkept rfl, Receiver.chunks_setSame hc (processCompletedHeader_kept hresult).1]
      exact h
  | @payload i bytes c c' t w' htakes hc hstate hlength hresult =>
      have hhonest := hdelivers i c bytes htakes
      have htaken := processCompletedPayload_taken hresult (hconnections.ok i c hc) hstate
      have hgather : run.gather r event = if c.currentHeader.type = .data then
          Function.update run.gathered i (run.gatheredWith i c bytes) else run.gathered := by
        rw [UploadRun.gather, htakes]
      rw [hgather]
      cases htaken with
      | sessionInit htype hinit hframe hactive =>
          rw [if_neg (by rw [htype]; decide), Receiver.chunks_setSame hc
            (show ({ c with sessionReady := true, readState := .header } :
              FileServerConnection).chunkState = c.chunkState from rfl)]
          exact h
      | @data active b w' htype hactive hb hnext hrun =>
          rw [if_pos htype, Receiver.chunks_set hc]
          intro j chunk hj
          by_cases hij : j = i
          · subst hij
            rw [Function.update_self] at hj ⊢
            have hoffset := @Honest.gatheredWith client run c b active bytes _ j hhonest htype hb
              hnext fun hin => by
                have hchunk := Receiver.chunks_eq hc
                rw [FileServerConnection.chunkState, if_pos hin] at hchunk
                obtain ⟨content, -, hfileOk⟩ := htemp active hactive
                obtain ⟨written, hgathers, -⟩ := hfileOk.receiving j _ hchunk
                exact ⟨h j _ hchunk, hgathers.next_eq⟩
            rw [FileServerConnection.chunkState] at hj
            split at hj
            · rw [← Option.some.inj hj]
              exact hoffset
            · cases hj
          · rw [Function.update_of_ne hij] at hj ⊢
            exact h j chunk hj
      | chunkComplete htype hactive hcheck hrun hchecksum hrecord =>
          rw [if_neg (by rw [htype]; decide), Receiver.chunks_set hc]
          intro j chunk hj
          by_cases hij : j = i
          · subst hij
            rw [Function.update_self] at hj
            cases hj
          · rw [Function.update_of_ne hij] at hj
            exact h j chunk hj
  | verified hevent hactive hcomplete hcheck => cases hphase'
  | returned hreturned hsent =>
      rw [hreturned] at hphase'
      cases hphase'

/-- What the event opens is the client's transfer. -/
theorem Delivers.brings (h : client.Delivers r event) :
    r.Brings (fun init => ∃ resume, init = client.sessionInit resume) event := by
  intro i c bytes init htakes htype hdecode
  obtain ⟨resume, hinit⟩ := (h i c bytes htakes).sessionInit htype
  exact ⟨resume, Except.ok.inj (hdecode.symm.trans hinit)⟩

/-- **An event with a payload of the client**, or without one. -/
theorem HonestRun.receive (h : client.HonestRun path run) (hok : ReceiverOk path run r)
    (hr : run.receiver = some r) (hdelivers : r.phase = .receiving → client.Delivers r event) :
    client.HonestRun path (run.receive r event) := by
  have hhonest := h.receiver r hr
  have hinits := Receiver.step_inits hhonest.inits (fun hphase => (hdelivers hphase).brings)
    run.world
  have hrecords := Receiver.step_recordsAre hok.invariant hok.crc hhonest.records
    fun hphase => hhonest.recorded hok hphase event
  have hsame := (r.step_keepsConnections event run.world).options
  -- the client's SESSION_INITs are about its temp file
  have huses : ∀ init : SessionInitPayload, (∃ resume, init = client.sessionInit resume) →
      Uses r.options init (tempPathForOutput path client.transferId) client.source.length := by
    rintro init ⟨resume, rfl⟩
    exact uses_sessionInit hok.path resume
  have hfits := Receiver.step_fits hok.invariant hok.crc
    (fun a ha => huses a.init (hhonest.inits a ha)) hok.receiving
    (fun hphase i c bytes init htakes htype hdecode =>
      huses init ((hdelivers hphase).brings i c bytes init htakes htype hdecode)) h.fits
  have hdisk := hrecords.disk
  rw [hok.path] at hdisk
  refine ⟨hfits, hdisk, fun r' hr' => ?_⟩
  obtain rfl := Option.some.inj hr'
  refine ⟨hinits, ?_, fun hphase' => ?_⟩
  · rw [hsame]
    exact hrecords
  · have hphase := r.receiving_of_step hphase'
    obtain ⟨hconnections, htemp⟩ := hok.receiving hphase
    exact Gathered.step (hhonest.gathered hphase) hconnections htemp hphase (hdelivers hphase)
      hphase'

/-- **A new attempt.** -/
theorem HonestRun.attempt (h : client.HonestRun path run) {options : FileTransferOptions}
    (hpath : options.path = path) {w w' : World}
    (hmanifest : w.files (manifestPathForOutput path) = run.world.files (manifestPathForOutput path))
    (htemp : w.files (tempPathForOutput path client.transferId) =
      run.world.files (tempPathForOutput path client.transferId))
    (hstart : Receiver.start options w = (.ok r, w')) :
    client.HonestRun path ⟨some r, w', fun _ => [], ∅, false⟩ := by
  obtain ⟨rfl, hframe⟩ := Receiver.start_ok hstart
  have hdisk : DiskSays parseTransferManifest w' (manifestPathForOutput path)
      (Manifest.RecordsAre client.Recorded) :=
    (h.disk.congr hmanifest).congr (hframe.files _ (Set.notMem_empty _))
  refine ⟨(h.fits.congr htemp).frame hframe (Set.notMem_empty _), hdisk, fun r hr => ?_⟩
  obtain rfl := Option.some.inj hr
  refine ⟨fun a ha => (by cases ha), ⟨?_, fun a ha => (by cases ha)⟩, fun _ i chunk hchunk => ?_⟩
  · rw [hpath]
    exact hdisk
  · cases hchunk

/-! ### At the rename -/

/-- **When everything has been received**, the temp file is the source. -/
theorem HonestRun.source (h : client.HonestRun path run) (hok : ReceiverOk path run r)
    (hr : run.receiver = some r) {active : ActiveTransfer} {content : Bytes}
    (hcomplete : Complete run r active content)
    (hcollision : NoCollision (run.contents ∪ client.chunks)) : content = client.source := by
  have hhonest := h.receiver r hr
  obtain ⟨resume, hinit⟩ := hhonest.inits active hcomplete.active'
  have hsound := hok.invariant.sound active hcomplete.active'
  obtain ⟨hardware, hs⟩ := hsound.session
  have htotal : active.session.manifest.totalSize = client.source.length := by
    rw [← client.totalSize_toNat, show client.totalSize = active.init.totalSize by rw [hinit]; rfl]
    exact hs.opened.totalSize
  have hchunk : active.session.manifest.chunkSize = client.chunkSize.toNat := by
    rw [show client.chunkSize = active.init.chunkSize by rw [hinit]; rfl]
    exact hs.opened.chunkSize
  -- each record stands in the file as it does in the source
  have hstored : ∀ record ∈ active.session.records,
      World.slice content record.offset record.length =
        World.slice client.source record.offset record.length := by
    intro record hrecord
    obtain ⟨-, seg, hseg, has, hslice⟩ := hcomplete.stored
      (NoCollision.mono hcollision Set.subset_union_left) record hrecord
    obtain ⟨hoffset, hinside, hlength⟩ :=
      hok.planned.session active hcomplete.active' record hrecord
    have hchecksum := hhonest.records.session active hcomplete.active' record hrecord
    rw [hchunk] at hoffset hlength
    rw [htotal] at hinside hlength
    have hwithin : record.offset + record.length ≤ client.source.length := by
      rw [hlength]
      omega
    apply hslice.trans
    refine hcollision seg (Or.inl hseg)
      ⟨record.offset, World.slice client.source record.offset record.length⟩ (Or.inr ?_)
      has.offset ?_ ?_
    · refine ⟨record.chunkId, ?_, ?_⟩
      · rw [← hoffset]
        exact hinside
      · rw [← hoffset, ← hlength]
    · rw [World.length_slice hwithin]
      exact has.length
    · exact congrArg ChecksumValue.value (has.checksum.trans hchecksum)
  have hpath : active.session.manifest.tempPath = tempPathForOutput path client.transferId := by
    rw [hsound.tempPath, hok.path, hinit]
    rfl
  have hle := h.fits content (by rw [← hpath]; exact hcomplete.file)
  exact hs.ok.content_eq hcomplete.missing htotal hle hstored

end UploadClient

end GridFlux
