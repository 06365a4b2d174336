/-
GridFlux/StorReceiver.lean

A receiver of one client's frames that shares its directory with others.

The others may write the manifest of the output path, and the output itself; the
temp file of the transfer is the receiver's own.  So nothing is said here of the
manifest, except of the one a session is resumed from (`Left`): what the
receiver has in memory and what is in its temp file go together (`StorOk`), and
what it renames is the source.
-/
import GridFlux.HonestUpload

namespace GridFlux

open HalfOpen TextCodec Transition SharedFile

namespace FileTransferServer

/-! ### The files of a step -/

/-- The files that a transfer writes at an output path, before the rename. -/
def transferFiles (output transferId : Bytes) (w : World) : Set Path :=
  {tempPathForOutput output transferId, manifestPathForOutput output,
    w.manifestTempPath (manifestPathForOutput output)}

/-- The temp file of another transfer is none of them. -/
theorem tempPath_notMem_transferFiles {transferId transferId' : Bytes} (h : transferId ≠ transferId')
    (output : Bytes) (w : World) :
    tempPathForOutput output transferId ∉ transferFiles output transferId' w ∪ {output} := by
  have hapart := transfer_filesApart w output transferId
  rintro ((heq | heq | heq) | heq)
  · rw [tempPathForOutput, tempPathForOutput] at heq
    exact h (List.append_cancel_left heq)
  · exact hapart.temp_manifest heq
  · exact hapart.temp_manifestTemp heq
  · exact hapart.output_temp heq.symm

theorem output_notMem_transferFiles (output transferId : Bytes) (w : World) :
    output ∉ transferFiles output transferId w := by
  have hapart := transfer_filesApart w output transferId
  rintro (heq | heq | heq)
  · exact hapart.output_temp heq
  · exact hapart.output_manifest heq
  · exact hapart.output_manifestTemp heq

section Steps

variable {S : Set Path} {options : FileTransferOptions} {before after : Option ActiveTransfer}
  {w w' : World} {transferId : Bytes}

theorem ActiveTransfer.Sound.calls_frame {active : ActiveTransfer} (hsound : active.Sound options)
    (hid : active.init.transferId = transferId) {s' : TransferSession}
    (h : Session.Calls transferSessionFormat (insert active.session.manifest.tempPath S)
      active.session w s' w') :
    World.Frame (transferFiles options.path transferId w ∪ S) w w' := by
  apply h.frame.mono
  rw [Session.diskFiles, hsound.manifestPath, hsound.tempPath, hid, transferFiles]
  rintro p ((rfl | hp) | hp)
  · exact Or.inl (Or.inl rfl)
  · exact Or.inr hp
  · exact Or.inl (Or.inr hp)

/-- **The files that a step changes.** -/
theorem SessionStep.frame (h : SessionStep S options w before after w')
    (hsound : ∀ a, before = some a → a.Sound options)
    (hid : ∀ a, after = some a → a.init.transferId = transferId) :
    World.Frame (transferFiles options.path transferId w ∪ S) w w' := by
  cases h with
  | idle h => exact h.mono (Set.empty_subset _)
  | @opened init s₀ s w₀ w' hinit hopens h =>
      have hopen := openSession_frame hopens
      have hcalls := (openSession_sound hinit hopens).calls_frame (hid ⟨init, s⟩ rfl) h
      rw [transferFiles, World.manifestTempPath, hopen.pid] at hcalls
      exact (hopen.mono (Set.empty_subset _)).trans hcalls
  | @called active s' w' h => exact (hsound active rfl).calls_frame (hid { active with session := s' } rfl) h

/-- What the manifest file may hold after a step: what it held before, or a
manifest of the step's transfer. -/
theorem SessionStep.diskSays (h : SessionStep S options w before after w')
    (hsound : ∀ a, before = some a → a.Sound options)
    (hid : ∀ a, after = some a → a.init.transferId = transferId)
    (hS : manifestPathForOutput options.path ∉ S) {Q : TransferManifest → Prop}
    (hstored : ∀ manifest, manifest.tempPath = tempPathForOutput options.path transferId →
      Q manifest)
    (hdisk : DiskSays parseTransferManifest w (manifestPathForOutput options.path) Q) :
    DiskSays parseTransferManifest w' (manifestPathForOutput options.path) Q := by
  have hcalls : ∀ {active : ActiveTransfer} {s' : TransferSession} {w₁ : World},
      active.Sound options → active.init.transferId = transferId →
      DiskSays parseTransferManifest w₁ (manifestPathForOutput options.path) Q →
      Session.Calls transferSessionFormat (insert active.session.manifest.tempPath S)
        active.session w₁ s' w' →
      DiskSays parseTransferManifest w' (manifestPathForOutput options.path) Q := by
    intro active s' w₁ hactive hactiveId hdisk₁ h
    have hapart := transfer_filesApart w₁ options.path active.init.transferId
    obtain ⟨hardware, hs⟩ := hactive.session
    refine h.diskSays transfer_readsBack hs ?_ hdisk₁ fun s₁ manifest hs₁ hstores => ?_
    · rintro (heq | hmem)
      · rw [hactive.tempPath] at heq
        exact hapart.temp_manifest heq.symm
      · exact hS hmem
    · apply hstored
      rw [hstores.stored, ← hactiveId]
      exact hs₁.opened.tempPath
  cases h with
  | idle h => exact hdisk.congr (h.files _ (Set.notMem_empty _))
  | @opened init s₀ s w₀ w' hinit hopens h =>
      exact hcalls (openSession_sound hinit hopens) (hid ⟨init, s⟩ rfl)
        (hdisk.congr ((openSession_frame hopens).files _ (Set.notMem_empty _))) h
  | @called active s' w' h => exact hcalls (hsound active rfl) (hid { active with session := s' } rfl) hdisk h

end Steps

/-! ### The end of a transfer -/

namespace Receiver

/-- The transfer is a success, unless its COMPLETE frames get lost. -/
def Succeeded (r : Receiver) : Prop := r.phase = .committed ∨ r.phase = .returned (.ok ())

/-- How a receiver comes to the rename. -/
theorem verified_of_step (r : Receiver) {event : Event} {w : World}
    (h : (r.step event w).1.phase = .verified) :
    (r.phase = .verified ∧ r.step event w = (r, w)) ∨
    ∃ active s w', r.phase = .receiving ∧ r.transfer.active = some active ∧
      r.transfer.finConnections = r.options.connections ∧
      checkReceived r.options active.init.totalSize.toNat active.session w = (.ok (), s, w') ∧
      r.step event w = ({ r with
        phase := .verified
        transfer := { r.transfer with active := some { active with session := s } } }, w') := by
  unfold step at h ⊢
  cases hphase : r.phase with
  | receiving =>
      simp only [hphase] at h
      have hends := r.receive_ends event w
      generalize r.receive event w = result at h hends
      refine Or.inr ?_
      cases hends with
      | kept _ =>
          rw [hphase] at h
          cases h
      | accepted _ _ =>
          rw [show (Receiver.phase _) = _ from hphase] at h
          cases h
      | header _ _ _ _ =>
          rw [show (Receiver.phase _) = _ from hphase] at h
          cases h
      | payload _ _ _ _ _ =>
          rw [show (Receiver.phase _) = _ from hphase] at h
          cases h
      | verified hevent hactive hcomplete hcheck =>
          exact ⟨_, _, _, rfl, hactive, hcomplete, hcheck, rfl⟩
      | returned hreturned _ =>
          rw [hreturned] at h
          cases h
  | verified =>
      refine Or.inl ⟨rfl, ?_⟩
      cases event with
      | proceed =>
          cases hactive : r.transfer.active with
          | none => rfl
          | some active =>
              simp only [hphase, hactive] at h
              rw [rename] at h
              rcases hresult : publish transferSessionFormat r.options.toCommitOptions
                active.session w with ⟨e | _, s, w'⟩
              · simp only [hresult] at h
                cases h
              · simp only [hresult] at h
                cases h
      | accepted => rfl
      | header index encoded => rfl
      | payload index bytes => rfl
      | lost status => rfl
  | committed =>
      simp only [hphase] at h
      split at h
      · cases h
      · rw [hphase] at h
        cases h
  | returned status =>
      simp only [hphase] at h
      cases h

/-- **Only the rename** makes a transfer a success. -/
theorem succeeded_of_step (r : Receiver) {event : Event} {w : World}
    (h : (r.step event w).1.Succeeded) :
    r.Succeeded ∨ ∃ active s w', r.phase = .verified ∧ event = .proceed ∧
      r.transfer.active = some active ∧
      publish transferSessionFormat r.options.toCommitOptions active.session w =
        (.ok (), s, w') ∧ (r.step event w).2 = w' := by
  unfold step at h ⊢
  cases hphase : r.phase with
  | receiving =>
      simp only [hphase] at h
      have hends := r.receive_ends event w
      generalize r.receive event w = result at h hends
      cases hends with
      | kept _ => exact Or.inl h
      | accepted _ _ => exact Or.inl h
      | header _ _ _ _ => exact Or.inl h
      | payload _ _ _ _ _ => exact Or.inl h
      | verified _ _ _ _ =>
          rcases h with h | h
          · cases h
          · cases h
      | returned hreturned _ =>
          rcases h with h | h
          · rw [hreturned] at h
            cases h
          · rw [hreturned] at h
            cases h
  | verified =>
      have hnot : ¬r.Succeeded := by
        rintro (h | h)
        · rw [hphase] at h
          cases h
        · rw [hphase] at h
          cases h
      refine Or.inr ?_
      cases event with
      | proceed =>
          cases hactive : r.transfer.active with
          | none =>
              simp only [hphase, hactive] at h
              exact absurd h hnot
          | some active =>
              simp only [hphase, hactive] at h
              rw [rename] at h
              rcases hresult : publish transferSessionFormat r.options.toCommitOptions
                active.session w with ⟨e | _, s, w'⟩
              · simp only [hresult] at h
                rcases h with h | h
                · cases h
                · cases h
              · refine ⟨active, s, w', rfl, rfl, rfl, hresult, ?_⟩
                show (r.rename active w).2 = w'
                rw [rename, hresult]
      | accepted =>
          simp only [hphase] at h
          exact absurd h hnot
      | header index encoded =>
          simp only [hphase] at h
          exact absurd h hnot
      | payload index bytes =>
          simp only [hphase] at h
          exact absurd h hnot
      | lost status =>
          simp only [hphase] at h
          exact absurd h hnot
  | committed => exact Or.inl (Or.inl hphase)
  | returned status =>
      simp only [hphase] at h
      exact Or.inl h

end Receiver

end FileTransferServer

namespace UploadClient

open FileTransferServer

variable (client : UploadClient)

/-! ### What there is of the source -/

/-- The stretches of the source. -/
def stretches : Set (Segment UInt8) :=
  { seg | seg.data = World.slice client.source seg.offset seg.data.length }

/-- The chunks stand in the file as they do in the source. -/
def Holds (records : List ChunkChecksumRecord) (content : Bytes) : Prop :=
  ∀ record ∈ records, World.slice content record.offset record.length =
    World.slice client.source record.offset record.length

/-- What interrupted attempts of the client have left: in the temp file no more
than the source, and of each chunk that their manifest records what the source
has there. -/
structure Left (path : Path) (w : World) : Prop where
  fits : w.Fits (tempPathForOutput path client.transferId) client.source.length
  recorded : DiskSays parseTransferManifest w (manifestPathForOutput path) fun manifest =>
    manifest.tempPath = tempPathForOutput path client.transferId → ∀ content,
      w.files (tempPathForOutput path client.transferId) = some content →
        client.Holds manifest.verifiedChunks content

/-- What holds while frames come in. -/
structure Receiving (run : UploadRun) (r : Receiver) : Prop where
  connections : r.ConnectionsOk
  contents : run.contents ⊆ client.stretches
  temp : TempOk run.contents run.gathered r run.world
  gathered : client.Gathered r run.gathered

/-- What holds of a receiver of the client's frames, whatever others do to the
manifest and the output. -/
structure StorOk (path : Path) (run : UploadRun) (r : Receiver) : Prop where
  samePath : r.options.path = path
  crc : r.options.checksumAlgorithm = .crc32c
  invariant : r.Invariant r.options
  inits : ∀ a, r.transfer.active = some a → ∃ resume, a.init = client.sessionInit resume
  fits : run.world.Fits (tempPathForOutput path client.transferId) client.source.length
  receiving : r.phase = .receiving → client.Receiving run r
  verified : r.phase = .verified → ∃ active, r.transfer.active = some active ∧
    run.world.files active.session.manifest.tempPath = some client.source

variable {client} {path : Path} {run : UploadRun} {r : Receiver} {event : Event} {w w' : World}

theorem stretches_noCollision : NoCollision client.stretches := by
  intro a ha b hb hoffset hlength _
  calc a.data = World.slice client.source a.offset a.data.length := ha
    _ = World.slice client.source b.offset b.data.length := by rw [hoffset, hlength]
    _ = b.data := hb.symm

theorem slice_mem_stretches (offset length : Nat) :
    (⟨offset, World.slice client.source offset length⟩ : Segment UInt8) ∈ client.stretches := by
  show World.slice client.source offset length = World.slice client.source offset _
  rw [World.slice, World.slice, List.length_take, List.take_eq_take_iff]
  omega

theorem Left.congr (h : client.Left path w)
    (htemp : w'.files (tempPathForOutput path client.transferId) =
      w.files (tempPathForOutput path client.transferId))
    (hmanifest : w'.files (manifestPathForOutput path) = w.files (manifestPathForOutput path)) :
    client.Left path w' := by
  refine ⟨h.fits.congr htemp, ?_⟩
  rw [htemp]
  exact h.recorded.congr hmanifest

/-! ### Starting, and the others -/

/-- A receiver that has just started. -/
theorem StorOk.start {options : FileTransferOptions} (hleft : client.Left path w)
    (hpath : options.path = path) (hcrc : options.checksumAlgorithm = .crc32c)
    (hstart : Receiver.start options w = (.ok r, w')) :
    client.StorOk path ⟨some r, w', fun _ => [], ∅, false⟩ r := by
  have hinvariant := Receiver.Invariant.start hstart
  obtain ⟨rfl, hframe⟩ := Receiver.start_ok hstart
  refine ⟨hpath, hcrc, hinvariant, fun a ha => (by cases ha),
    hleft.fits.frame hframe (Set.notMem_empty _), fun _ => ⟨⟨?_, ?_, rfl, Nat.zero_le _,
      List.length_replicate ..⟩, Set.empty_subset _, fun active ha => (by cases ha), ?_⟩,
    fun h => (by cases h)⟩
  · intro i c hc
    cases hc
  · intro i j a b _ ha
    cases ha
  · intro i chunk hchunk
    cases hchunk

theorem StorOk.tempPath (h : client.StorOk path run r) {active : ActiveTransfer}
    (hactive : r.transfer.active = some active) :
    active.session.manifest.tempPath = tempPathForOutput path client.transferId := by
  obtain ⟨resume, hinit⟩ := h.inits active hactive
  rw [(h.invariant.sound active hactive).tempPath, h.samePath, hinit]
  rfl

/-- **What happens elsewhere** does not matter. -/
theorem StorOk.elsewhere (h : client.StorOk path run r)
    (hfile : w'.files (tempPathForOutput path client.transferId) =
      run.world.files (tempPathForOutput path client.transferId)) :
    client.StorOk path { run with world := w' } r := by
  have htemp : ∀ {active}, r.transfer.active = some active →
      w'.files active.session.manifest.tempPath =
        run.world.files active.session.manifest.tempPath := by
    intro active hactive
    rw [h.tempPath hactive]
    exact hfile
  refine ⟨h.samePath, h.crc, h.invariant, h.inits, h.fits.congr hfile, fun hphase => ?_,
    fun hphase => ?_⟩
  · obtain ⟨hconnections, hcontents, hfiles, hgathered⟩ := h.receiving hphase
    refine ⟨hconnections, hcontents, fun active hactive => ?_, hgathered⟩
    obtain ⟨content, hcontent, hok⟩ := hfiles active hactive
    exact ⟨content, (htemp hactive).trans hcontent, hok⟩
  · obtain ⟨active, hactive, hcontent⟩ := h.verified hphase
    exact ⟨active, hactive, (htemp hactive).trans hcontent⟩

/-- Nor does a step of another transfer matter to what has been left. -/
theorem Left.elsewhere (h : client.Left path w) {options : FileTransferOptions}
    {before after : Option ActiveTransfer} {transferId : Bytes}
    (hne : client.transferId ≠ transferId) (hpath : options.path = path)
    (hstep : SessionStep {path} options w before after w')
    (hsound : ∀ a, before = some a → a.Sound options)
    (hid : ∀ a, after = some a → a.init.transferId = transferId) : client.Left path w' := by
  subst hpath
  have htemp := (hstep.frame hsound hid).files _
    (tempPath_notMem_transferFiles hne options.path w)
  refine ⟨h.fits.congr htemp, ?_⟩
  rw [htemp]
  refine hstep.diskSays hsound hid ?_ (fun manifest hmanifest hsame => ?_) h.recorded
  · exact fun heq => (transfer_filesApart w options.path transferId).output_manifest heq.symm
  · rw [hmanifest, tempPathForOutput, tempPathForOutput] at hsame
    exact absurd (List.append_cancel_left hsame).symm hne

/-! ### What a session finds -/

/-- **A session that is opened** finds of the chunks it knows what the source has
there. -/
theorem Left.opened (h : client.Left path w) {options : FileTransferOptions}
    {init : SessionInitPayload} {s₀ s : TransferSession} {w₀ w₁ : World}
    {result : Except TransferError Unit} (hpath : options.path = path)
    (hcrc : init.checksumAlgorithm = .crc32c) (hid : init.transferId = client.transferId)
    (hcheck : checkSessionInit options init = .ok ())
    (hopens : openSession options init w = (.ok s₀, w₀))
    (hprepare : prepareSession options init s₀ w₀ = (result, s, w₁)) {content : Bytes}
    (hcontent : w₁.files s.manifest.tempPath = some content) :
    client.Holds s.records content := by
  have hsound := openSession_sound hcheck hopens
  have htemp : s₀.manifest.tempPath = tempPathForOutput path client.transferId := by
    rw [← hpath, ← hid]
    exact hsound.tempPath
  have hquiet := prepareSession_afterOpening options init s₀ w₀
  rw [hprepare] at hquiet
  have hsame : s.manifest.tempPath = s₀.manifest.tempPath := hquiet.calls.tempPath
  intro record hrecord
  have hrecord₀ := hquiet.records_subset hrecord
  rcases openSession_records hcrc hopens with ⟨-, hnil⟩ |
    ⟨hmode, text, manifest, htext, hparse, hrecords, -, -, hpaths⟩
  · rw [hnil] at hrecord₀
    cases hrecord₀
  · -- nothing has been written between the manifest's writing and its reading
    have hresume := (checkSessionInit_ok hcheck).1.mp hmode
    have hkept : w₁.files s.manifest.tempPath = w.files s.manifest.tempPath := by
      rw [hsame, hsound.temp_kept hquiet.calls,
        (openOutputForSession_resumed hresume _ _ w₀).files _ (Set.notMem_empty _),
        (openSession_frame hopens).files _ (Set.notMem_empty _)]
    rw [hpath] at htext
    rw [hkept, hsame, htemp] at hcontent
    rw [hrecords] at hrecord₀
    exact h.recorded text manifest htext hparse (hpaths.symm.trans htemp) content hcontent record
      hrecord₀

/-! ### The steps of a receiver -/

/-- What is recorded of a run while frames come in is the source's. -/
theorem StorOk.contents_receive (h : client.StorOk path run r) (hphase : r.phase = .receiving)
    (hleft : r.transfer.active = none → client.Left path run.world)
    (hdelivers : client.Delivers r event)
    (hgoes : ∀ status, (r.step event run.world).1.phase ≠ .returned status) :
    (run.receive r event).contents ⊆ client.stretches := by
  have hreceiving := h.receiving hphase
  have hinits := Receiver.step_inits h.inits (fun _ => hdelivers.brings) run.world
  have hstep : r.step event run.world = r.receive event run.world := by
    unfold Receiver.step
    rw [hphase]
  rintro seg ((hseg | ⟨i, c, bytes, htakes, htype, hin, rfl⟩) |
    ⟨hnone, active, content, hactive, hcontent, record, hrecord, rfl⟩)
  · exact hreceiving.contents hseg
  · -- a chunk that a connection ends
    obtain ⟨-, hc, -⟩ := Receiver.takes_ok htakes
    have hchunk := Receiver.chunks_eq hc
    rw [FileServerConnection.chunkState, if_pos hin] at hchunk
    exact hreceiving.gathered i _ hchunk
  · -- a chunk that a session finds
    obtain ⟨resume, hinit⟩ := hinits active hactive
    have hends := r.receive_ends event run.world
    rw [hstep] at hactive hcontent hgoes
    generalize r.receive event run.world = result at hactive hcontent hgoes hends
    have hopened : client.Holds active.session.records content := by
      cases hends with
      | kept _ =>
          rw [hnone] at hactive
          cases hactive
      | accepted _ _ =>
          rw [show (Receiver.transfer _).active = r.transfer.active from rfl, hnone] at hactive
          cases hactive
      | header _ hc hstate hresult =>
          have hsame := Receiver.processCompletedHeader_active hresult
          rw [hnone] at hsame
          rw [show (Receiver.transfer _).active = _ from hsame] at hactive
          cases hactive
      | @payload i bytes c c' t w' htakes hc hstate hlength hresult =>
          cases processCompletedPayload_taken hresult (hreceiving.connections.ok i c hc) hstate with
          | @sessionInit t' init active' w₁ w' htype hopening hframe hactive' =>
              obtain rfl := Option.some.inj (hactive'.symm.trans hactive)
              have hends := initializeSession_ends r.options init r.transfer.active run.world
              rw [hopening, hnone] at hends
              cases hends with
              | @opened s₀ s w₀ w₁ _ hcheck hopens hprepare =>
                  rw [hframe.files _ (Set.notMem_empty _)] at hcontent
                  exact (hleft hnone).opened h.samePath
                    ((checkSessionInit_ok hcheck).2.trans h.crc)
                    (congrArg SessionInitPayload.transferId hinit) hcheck hopens hprepare hcontent
          | data htype hactive' hb hnext hrun =>
              rw [hnone] at hactive'
              cases hactive'
          | chunkComplete htype hactive' hcheck hrun hchecksum hrecord =>
              rw [hnone] at hactive'
              cases hactive'
      | verified _ hactive' _ _ =>
          rw [hnone] at hactive'
          cases hactive'
      | returned hreturned _ => exact absurd hreturned (hgoes _)
    rw [hopened record hrecord]
    exact slice_mem_stretches _ _

/-- **When everything has been received**, the temp file is the source. -/
theorem source_of_complete {active : ActiveTransfer} {content : Bytes}
    (hcomplete : Complete run r active content) (hpath : r.options.path = path)
    (hinvariant : r.Invariant r.options)
    (hinits : ∀ a, r.transfer.active = some a → ∃ resume, a.init = client.sessionInit resume)
    (hfits : run.world.Fits (tempPathForOutput path client.transferId) client.source.length)
    (hcontents : run.contents ⊆ client.stretches) : content = client.source := by
  obtain ⟨resume, hinit⟩ := hinits active hcomplete.active'
  have hsound := hinvariant.sound active hcomplete.active'
  obtain ⟨hardware, hs⟩ := hsound.session
  have htotal : active.session.manifest.totalSize = client.source.length := by
    rw [← client.totalSize_toNat, show client.totalSize = active.init.totalSize by rw [hinit]; rfl]
    exact hs.opened.totalSize
  have htemp : active.session.manifest.tempPath = tempPathForOutput path client.transferId := by
    rw [hsound.tempPath, hpath, hinit]
    rfl
  refine hs.ok.content_eq hcomplete.missing htotal (hfits content ?_) fun record hrecord => ?_
  · rw [← htemp]
    exact hcomplete.file
  · obtain ⟨-, seg, hseg, has, hslice⟩ := hcomplete.stored
      (NoCollision.mono stretches_noCollision hcontents) record hrecord
    rw [hslice, ← has.offset, ← has.length]
    exact hcontents hseg

/-- **Every event** leaves a receiver of the client's frames in order. -/
theorem StorOk.step (h : client.StorOk path run r)
    (hleft : r.phase = .receiving → r.transfer.active = none → client.Left path run.world)
    (hdelivers : r.phase = .receiving → client.Delivers r event) :
    client.StorOk path (run.receive r event) (r.step event run.world).1 := by
  have hsame := (r.step_keepsConnections event run.world).options
  have hinvariant := h.invariant.step event run.world
  have hinits := Receiver.step_inits h.inits (fun hphase => (hdelivers hphase).brings) run.world
  have huses : ∀ init : SessionInitPayload, (∃ resume, init = client.sessionInit resume) →
      Uses r.options init (tempPathForOutput path client.transferId) client.source.length := by
    rintro init ⟨resume, rfl⟩
    exact uses_sessionInit h.samePath resume
  have hfits := Receiver.step_fits h.invariant h.crc
    (fun a ha => huses a.init (h.inits a ha))
    (fun hphase => ⟨(h.receiving hphase).connections, (h.receiving hphase).temp⟩)
    (fun hphase i c bytes init htakes htype hdecode =>
      huses init ((hdelivers hphase).brings i c bytes init htakes htype hdecode)) h.fits
  rw [← hsame] at hinvariant
  refine ⟨hsame ▸ h.samePath, hsame ▸ h.crc, hinvariant, hinits, hfits, fun hphase' => ?_,
    fun hphase' => ?_⟩
  · have hphase := r.receiving_of_step hphase'
    have hreceiving := h.receiving hphase
    obtain ⟨hconnections, htemp⟩ := hreceiving.temp.step hreceiving.connections
      h.invariant.sound h.crc hphase hphase'
    refine ⟨hconnections, ?_, htemp, hreceiving.gathered.step hreceiving.connections
      hreceiving.temp hphase (hdelivers hphase) hphase'⟩
    refine h.contents_receive hphase (hleft hphase) (hdelivers hphase) fun status hreturned => ?_
    rw [hphase'] at hreturned
    cases hreturned
  · rcases r.verified_of_step hphase' with ⟨hphase, hkept⟩ |
      ⟨active, s, w', hphase, hactive, hfins, hcheck, hstep⟩
    · obtain ⟨active, hactive, hcontent⟩ := h.verified hphase
      refine ⟨active, ?_, ?_⟩
      · rw [hkept]
        exact hactive
      · show (r.step event run.world).2.files _ = _
        rw [hkept]
        exact hcontent
    · have hreceiving := h.receiving hphase
      have hcontents := h.contents_receive hphase (hleft hphase) (hdelivers hphase)
        fun status hreturned => by
          rw [hphase'] at hreturned
          cases hreturned
      obtain ⟨content, hcomplete⟩ := Complete.of_checkReceived (h.invariant.sound active hactive)
        hreceiving.connections hreceiving.temp hactive hfins hcheck hstep
      have hsource := source_of_complete hcomplete (hsame ▸ h.samePath) hinvariant hinits hfits hcontents
      rw [hsource] at hcomplete
      exact ⟨_, hcomplete.active', hcomplete.file⟩

/-- **The rename** of a transfer that becomes a success makes the source the
output. -/
theorem StorOk.succeeds (h : client.StorOk path run r)
    (hsucceeded : (r.step event run.world).1.Succeeded) :
    r.Succeeded ∨ (r.phase = .verified ∧ event = .proceed ∧
      (r.step event run.world).2.files path = some client.source) := by
  rcases r.succeeded_of_step hsucceeded with hbefore |
    ⟨active, s, w', hphase, hevent, hactive, hpublish, hworld⟩
  · exact Or.inl hbefore
  · obtain ⟨active', hactive', hfile⟩ := h.verified hphase
    obtain rfl := Option.some.inj (hactive.symm.trans hactive')
    have hpublished := (h.invariant.sound active hactive).published hfile hpublish
    refine Or.inr ⟨hphase, hevent, ?_⟩
    rw [hworld, ← h.samePath]
    exact hpublished.output

end UploadClient

end GridFlux
