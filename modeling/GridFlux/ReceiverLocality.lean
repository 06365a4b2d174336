/-
GridFlux/ReceiverLocality.lean

The upload receiver keeps to the files of its upload: the output, its manifest,
the file that the manifest is written through and the temp files.

Whatever the other files hold, a receiver that starts or takes an event does
the same and leaves them alone (`start_amid`, `step_amid`).
-/
import GridFlux.LocalEffects
import GridFlux.ReceiverRuns

namespace GridFlux

open TextCodec WithWorld

namespace FileTransferServer

/-- Every file that an upload to the path may use, in any process and under any
transfer id. -/
inductive UploadFile (path : Path) : Path → Prop
  | output : UploadFile path path
  | manifest : UploadFile path (manifestPathForOutput path)
  | manifestTemp (w : World) : UploadFile path (w.manifestTempPath (manifestPathForOutput path))
  | temp {transferId : Bytes} (h : isValidTransferId transferId) :
      UploadFile path (tempPathForOutput path transferId)

def uploadFiles (path : Path) : Set Path := { p | UploadFile path p }

theorem checkSessionInit_valid {options : FileTransferOptions} {init : SessionInitPayload}
    {u : Unit} (h : checkSessionInit options init = .ok u) :
    isValidTransferId init.transferId := by
  rw [checkSessionInit, bind_eq_ok] at h
  obtain ⟨_, hvalid, -⟩ := h
  exact check_eq_ok.mp hvalid

section

variable {options : FileTransferOptions} {init : SessionInitPayload} {s : TransferSession}

/-- A session that has been opened keeps to the files of its upload. -/
theorem within_of_opens {hardware : Bool} (hinit : checkSessionInit options init = .ok ())
    (h : TransferSession.Opens hardware (sessionRequest options init) s) :
    s.Within (uploadFiles options.path) := by
  have hopened := h.sound.1.opened
  have htemp : s.manifest.tempPath = tempPathForOutput options.path init.transferId :=
    hopened.tempPath
  have hmanifest : s.manifestPath = manifestPathForOutput options.path := hopened.manifestPath
  refine ⟨?_, fun w => ?_, ?_⟩
  · rw [hmanifest]
    exact .manifest
  · rw [hmanifest]
    exact .manifestTemp w
  · rw [htemp]
    exact .temp (checkSessionInit_valid hinit)

theorem ActiveTransfer.Sound.within {active : ActiveTransfer} (h : active.Sound options) :
    active.session.Within (uploadFiles options.path) := by
  refine ⟨?_, fun w => ?_, ?_⟩
  · rw [h.manifestPath]
    exact .manifest
  · rw [h.manifestPath]
    exact .manifestTemp w
  · rw [h.tempPath]
    exact .temp (checkSessionInit_valid h.checked)

end

section Local

variable {S : Set Path} (others : Path → Option Bytes) (w : World) {path : Path}
  (options : FileTransferOptions) {s : TransferSession}

/-! ### Opening -/

theorem openOutputForSession_amid (hpath : path ∈ S) (totalSize : Nat) :
    openOutputForSession options path totalSize (w.amid S others) =
      mapWorld (World.amid S others) (openOutputForSession options path totalSize w) := by
  rw [openOutputForSession, openOutputForSession]
  split
  · rw [World.openReadWrite, World.openReadWrite, World.openExisting_amid _ _ _ hpath]
    rcases w.openExisting (ascii "open read-write") path with ⟨e | _, w₁⟩
    · rfl
    · exact World.applyFileIoAdvice_amid others w₁ _ _
  · rw [World.openReadWriteExclusive_amid _ _ hpath]
    rcases w.openReadWriteExclusive path with ⟨e | _, w₁⟩
    · rfl
    · dsimp only [mapWorld]
      have hallocate : (if totalSize > 0 ∧ options.preallocateMode = .full then
            (w₁.amid S others).preallocate path totalSize else (.ok (), w₁.amid S others)) =
          mapWorld (World.amid S others) (if totalSize > 0 ∧ options.preallocateMode = .full then
            w₁.preallocate path totalSize else (.ok (), w₁)) := by
        rw [World.preallocate_amid _ _ hpath]
        split
        · rfl
        · rfl
      rw [hallocate]
      rcases (if totalSize > 0 ∧ options.preallocateMode = .full then
          w₁.preallocate path totalSize else (.ok (), w₁)) with ⟨e | _, w₂⟩
      · rfl
      · dsimp only [mapWorld]
        rw [World.resize_amid _ _ hpath]
        rcases w₂.resize path totalSize with ⟨e | _, w₃⟩
        · rfl
        · exact World.applyFileIoAdvice_amid others w₃ _ _

theorem openSession_amid (hmanifest : manifestPathForOutput options.path ∈ S)
    (init : SessionInitPayload) :
    openSession options init (w.amid S others) =
      mapWorld (World.amid S others) (openSession options init w) := by
  have hresume := @TransferSession.resume_amid S others w (sessionRequest options init) hmanifest
  rw [openSession, openSession, TransferSession.createNew_amid, hresume]
  by_cases hmode : init.mode = .resume
  · simp only [if_pos hmode]
    rcases TransferSession.resume (sessionRequest options init) w with ⟨e | s, w₁⟩
    · rfl
    · rfl
  · simp only [if_neg hmode]
    rcases TransferSession.createNew (sessionRequest options init) w with ⟨e | s, w₁⟩
    · rfl
    · rfl

theorem prepareSession_amid (h : s.Within S) (init : SessionInitPayload) :
    prepareSession options init s (w.amid S others) =
      mapWorld (World.amid S others) (prepareSession options init s w) := by
  rw [prepareSession, prepareSession, openOutputForSession_amid _ _ _ h.temp]
  rcases openOutputForSession options s.manifest.tempPath init.totalSize.toNat w with ⟨e | _, w₁⟩
  · rfl
  · dsimp only [mapWorld]
    have hverify : (if init.mode = .resume then
          s.verifyTempChunks transferSessionFormat s.manifest.tempPath (w₁.amid S others)
          else (.ok (), s, w₁.amid S others)) =
        mapWorld (World.amid S others) (if init.mode = .resume then
          s.verifyTempChunks transferSessionFormat s.manifest.tempPath w₁
          else (.ok (), s, w₁)) := by
      rw [Session.verifyTempChunks_amid _ _ _ h h.temp]
      split
      · rfl
      · rfl
    have hkeeps : (if init.mode = .resume then
          s.verifyTempChunks transferSessionFormat s.manifest.tempPath w₁
          else (.ok (), s, w₁)).2.1.Within S := by
      split
      · exact h.run w₁ (.verifyTempChunks s.manifest.tempPath)
      · exact h
    rw [hverify]
    rcases hverified : (if init.mode = .resume then
        s.verifyTempChunks transferSessionFormat s.manifest.tempPath w₁
        else (.ok (), s, w₁)) with ⟨e | _, s₂, w₂⟩
    · rfl
    · rw [hverified] at hkeeps
      dsimp only [mapWorld]
      rw [Session.save_amid _ _ _ hkeeps]
      rcases s₂.save transferSessionFormat w₂ with ⟨e | _, s₃, w₃⟩
      · rfl
      · rfl

theorem initializeSession_amid (init : SessionInitPayload) (active : Option ActiveTransfer) :
    initializeSession options init active (w.amid (uploadFiles options.path) others) =
      mapWorld (World.amid (uploadFiles options.path) others)
        (initializeSession options init active w) := by
  rw [initializeSession, initializeSession, World.amid_hardware]
  cases hinit : checkSessionInit options init with
  | error e => rfl
  | ok _ =>
      dsimp only
      cases resolveChecksumBackend w.crc32cHardwareAvailable init.checksumAlgorithm
          options.checksumBackend with
      | error e => rfl
      | ok backend =>
          cases active with
          | some active => rfl
          | none =>
              dsimp only
              rw [openSession_amid _ _ _ (show _ ∈ uploadFiles options.path from .manifest)]
              rcases hopens : openSession options init w with ⟨e | s, w₁⟩
              · rfl
              · dsimp only [mapWorld]
                rw [prepareSession_amid _ _ _ (within_of_opens hinit (openSession_opens hopens))]
                rcases prepareSession options init s w₁ with ⟨result, s₂, w₂⟩
                rfl

/-! ### Payloads -/

theorem sendFrame_amid :
    sendFrame (w.amid S others) = mapWorld (World.amid S others) (sendFrame w) := by
  rw [sendFrame, sendFrame, World.amid_nextOutcome]
  cases w.nextOutcome with
  | failure e moved => rfl
  | success => rfl

theorem processSessionInitPayload_amid (index : Nat) (connection : FileServerConnection)
    (transfer : TransferState) (bytes : Bytes) :
    processSessionInitPayload options index connection transfer bytes
        (w.amid (uploadFiles options.path) others) =
      mapWorld (World.amid (uploadFiles options.path) others)
        (processSessionInitPayload options index connection transfer bytes w) := by
  rw [processSessionInitPayload, processSessionInitPayload]
  cases decodeSessionInitPayload bytes with
  | error e => rfl
  | ok init =>
      dsimp only
      rw [initializeSession_amid]
      rcases initializeSession options init transfer.active w with ⟨e | _, _ | active, w₁⟩
      · rfl
      · rfl
      · rfl
      · dsimp only [mapWorld]
        cases resumeResponse options { connection with sessionReady := true } active with
        | error e => rfl
        | ok frame =>
            dsimp only
            rw [sendFrame_amid]
            rcases sendFrame w₁ with ⟨e | _, w₂⟩
            · rfl
            · rfl

theorem processDataPayload_amid (connection : FileServerConnection) {active : ActiveTransfer}
    (h : active.session.Within S) (bytes : Bytes) :
    processDataPayload connection active bytes (w.amid S others) =
      mapWorld (World.amid S others) (processDataPayload connection active bytes w) := by
  rw [processDataPayload, processDataPayload, World.amid_hardware]
  split
  · rfl
  · rcases (beginChunk connection active w.crc32cHardwareAvailable).writer.write
      connection.currentHeader.offset.toNat bytes with ⟨jobs, writer⟩
    dsimp only
    rw [World.runWrites_amid _ _ h.temp]
    rcases w.runWrites active.session.manifest.tempPath jobs with ⟨e | _, w₁⟩
    · rfl
    · rfl

theorem processChunkCompletePayload_amid (connection : FileServerConnection)
    {active : ActiveTransfer} (h : active.session.Within S) (bytes : Bytes) :
    processChunkCompletePayload connection active bytes (w.amid S others) =
      mapWorld (World.amid S others) (processChunkCompletePayload connection active bytes w) := by
  rw [processChunkCompletePayload, processChunkCompletePayload]
  cases checkChunkComplete connection active bytes with
  | error e => rfl
  | ok payload =>
      dsimp only
      rw [World.runWrites_amid _ _ h.temp]
      rcases w.runWrites active.session.manifest.tempPath connection.writer.flush.1
        with ⟨e | _, w₁⟩
      · rfl
      · dsimp only [mapWorld]
        split
        · rfl
        · rw [Session.recordVerifiedChunk_amid _ _ _ h]
          rcases active.session.recordVerifiedChunk transferSessionFormat payload.chunkId.toNat
            payload.offset.toNat payload.length.toNat payload.checksum w₁ with ⟨e | _, s₂, w₂⟩
          · rfl
          · rfl

theorem processCompletedPayload_amid (index : Nat) (connection : FileServerConnection)
    {transfer : TransferState}
    (h : ∀ active, transfer.active = some active →
      active.session.Within (uploadFiles options.path)) (bytes : Bytes) :
    processCompletedPayload options index connection transfer bytes
        (w.amid (uploadFiles options.path) others) =
      mapWorld (World.amid (uploadFiles options.path) others)
        (processCompletedPayload options index connection transfer bytes w) := by
  rw [processCompletedPayload, processCompletedPayload]
  split
  · exact processSessionInitPayload_amid others w options index connection transfer bytes
  · cases hactive : transfer.active with
    | none => rfl
    | some active =>
        dsimp only
        split
        · rw [processChunkCompletePayload_amid _ _ _ (h active hactive)]
          rcases processChunkCompletePayload connection active bytes w with ⟨e | c, s, w₁⟩
          · rfl
          · rfl
        · rw [processDataPayload_amid _ _ _ (h active hactive)]
          rcases processDataPayload connection active bytes w with ⟨e | c, w₁⟩
          · rfl
          · rfl

/-! ### The commit -/

theorem checkReceived_amid (h : s.Within S) (hpath : options.path ∈ S) (totalSize : Nat) :
    checkReceived options totalSize s (w.amid S others) =
      mapWorld (World.amid S others) (checkReceived options totalSize s w) := by
  rw [checkReceived, checkReceived]
  split
  · exact Session.fail_amid others w _ h _ _
  · have hverified := h.of_eq
      (finalVerify_calls transferSessionFormat options.toCommitOptions
        (ascii "final verify found missing ranges") totalSize s w).manifestPath
      (finalVerify_calls transferSessionFormat options.toCommitOptions
        (ascii "final verify found missing ranges") totalSize s w).tempPath
    rw [finalVerify_amid _ _ _ _ h]
    rcases hverify : finalVerify transferSessionFormat options.toCommitOptions
      (ascii "final verify found missing ranges") totalSize s w with ⟨e | _, s₁, w₁⟩
    · rfl
    · rw [hverify] at hverified
      have hsaved : (s₁.save transferSessionFormat w₁).2.1.Within S := hverified.run w₁ .save
      dsimp only [mapWorld]
      rw [Session.save_amid _ _ _ hverified]
      rcases hsave : s₁.save transferSessionFormat w₁ with ⟨e | _, s₂, w₂⟩
      · rw [hsave] at hsaved
        exact Session.fail_amid others w₂ _ hsaved _ _
      · rw [hsave] at hsaved
        dsimp only [mapWorld]
        rw [World.pathExists_amid _ _ hpath]
        rcases w₂.pathExists options.path with ⟨e | outputExists, w₃⟩
        · exact Session.fail_amid others w₃ _ hsaved _ _
        · dsimp only [mapWorld]
          split
          · exact Session.fail_amid others w₃ _ hsaved _ _
          · rfl

theorem sendStatusToConnections_amid (connections : Nat) :
    sendStatusToConnections connections (w.amid S others) =
      mapWorld (World.amid S others) (sendStatusToConnections connections w) := by
  induction connections generalizing w with
  | zero => rfl
  | succ connections ih =>
      rw [sendStatusToConnections, sendStatusToConnections, sendFrame_amid]
      rcases sendFrame w with ⟨e | _, w₁⟩
      · show (Except.error e, (sendStatusToConnections connections (w₁.amid S others)).2) = _
        rw [ih w₁]
        rfl
      · exact ih w₁

theorem validateServerOutputState_amid (hpath : options.path ∈ S)
    (hmanifest : manifestPathForOutput options.path ∈ S) :
    validateServerOutputState options (w.amid S others) =
      mapWorld (World.amid S others) (validateServerOutputState options w) := by
  rw [validateServerOutputState, validateServerOutputState, World.pathExists_amid _ _ hpath]
  rcases w.pathExists options.path with ⟨e | outputExists, w₁⟩
  · rfl
  · dsimp only [mapWorld]
    split
    · rfl
    · rw [World.pathExists_amid _ _ hmanifest]
      rcases w₁.pathExists (manifestPathForOutput options.path) with ⟨e | manifestExists, w₂⟩
      · rfl
      · dsimp only [mapWorld]
        split
        · rfl
        · split
          · rfl
          · rfl

/-! ### The receiver -/

namespace Receiver

/-- **A receiver starts the same among other files.** -/
theorem start_amid :
    start options (w.amid (uploadFiles options.path) others) =
      mapWorld (World.amid (uploadFiles options.path) others) (start options w) := by
  rw [start, start, validateServerOutputState_amid _ _ _
    (show _ ∈ uploadFiles options.path from .output)
    (show _ ∈ uploadFiles options.path from .manifest)]
  rcases validateServerOutputState options w with ⟨e | _, w₁⟩
  · rfl
  · dsimp only [mapWorld]
    cases validateFileIoConfig options.fileIo with
    | error e => rfl
    | ok _ => rfl

variable {r : Receiver} {active : ActiveTransfer}

theorem abort_amid (h : ∀ active, r.transfer.active = some active → active.session.Within S)
    (e : TransferError) :
    r.abort e (w.amid S others) = mapWorld (World.amid S others) (r.abort e w) := by
  rw [abort, abort]
  cases hactive : r.transfer.active with
  | none => rfl
  | some active =>
      dsimp only
      rw [Session.markFailed_amid _ _ _ (h active hactive)]
      rcases active.session.markFailed transferSessionFormat w with ⟨status, s, w₁⟩
      rfl

theorem finishedWithMissing_amid (h : active.session.Within S) :
    r.finishedWithMissing active (w.amid S others) =
      mapWorld (World.amid S others) (r.finishedWithMissing active w) := by
  rw [finishedWithMissing, finishedWithMissing, Session.fail_amid _ _ _ h]
  rcases active.session.fail transferSessionFormat .missingRange
    (.runtimeError (ascii "all streams finished with missing ranges")) w with ⟨e | _, s, w₁⟩
  · rfl
  · rfl

theorem verify_amid (h : active.session.Within S) (hpath : r.options.path ∈ S) :
    r.verify active (w.amid S others) =
      mapWorld (World.amid S others) (r.verify active w) := by
  rw [verify, verify, checkReceived_amid _ _ _ h hpath]
  rcases checkReceived r.options active.init.totalSize.toNat active.session w
    with ⟨e | _, s, w₁⟩
  · rfl
  · rfl

theorem rename_amid (h : active.session.Within S) (hpath : r.options.path ∈ S) :
    r.rename active (w.amid S others) =
      mapWorld (World.amid S others) (r.rename active w) := by
  rw [rename, rename, publish_amid _ _ _ _ h hpath]
  rcases publish transferSessionFormat r.options.toCommitOptions active.session w
    with ⟨e | _, s, w₁⟩
  · rfl
  · rfl

theorem complete_amid :
    r.complete (w.amid S others) = mapWorld (World.amid S others) (r.complete w) := by
  rw [complete, complete, sendStatusToConnections_amid]
  rcases sendStatusToConnections r.connections.length w with ⟨status, w₁⟩
  rfl

theorem receive_amid (h : r.Invariant options) (event : Event) :
    r.receive event (w.amid (uploadFiles options.path) others) =
      mapWorld (World.amid (uploadFiles options.path) others) (r.receive event w) := by
  have hwithin : ∀ active, r.transfer.active = some active →
      active.session.Within (uploadFiles options.path) := fun active hactive =>
    (h.sound active hactive).within
  have hpath : r.options.path ∈ uploadFiles options.path := by
    rw [h.sameOptions]
    exact .output
  rw [receive.eq_def, receive.eq_def]
  cases event with
  | accepted =>
      dsimp only
      split
      · rfl
      · rfl
  | header index encoded =>
      dsimp only
      cases r.connections[index]? with
      | none => rfl
      | some connection =>
          dsimp only
          split
          · cases processCompletedHeader r.options connection r.transfer encoded with
            | error e => exact abort_amid others w hwithin e
            | ok result => rfl
          · rfl
  | payload index bytes =>
      dsimp only
      cases r.connections[index]? with
      | none => rfl
      | some connection =>
          dsimp only
          split
          · have hpayload := processCompletedPayload_amid others w options index connection
              hwithin bytes
            have hstep := processCompletedPayload_step (S := {r.options.path}) r.options index
              connection r.transfer bytes w
            rw [h.sameOptions] at hstep ⊢
            rw [hpayload]
            rcases hresult : processCompletedPayload options index connection r.transfer bytes w
              with ⟨e | _, connection', transfer', w₁⟩
            · rw [hresult] at hstep
              -- the handler may have opened a session before it failed
              have hsound := hstep.sound h.sound
              exact abort_amid others w₁ (fun active hactive => (hsound active hactive).within) e
            · rfl
          · rfl
  | lost status => exact abort_amid others w hwithin _
  | proceed =>
      dsimp only
      cases hactive : r.transfer.active with
      | none => rfl
      | some active =>
          dsimp only
          split
          · split
            · exact finishedWithMissing_amid others w (hwithin active hactive)
            · exact verify_amid others w (hwithin active hactive) hpath
          · rfl

/-- **A receiver takes an event the same among other files.** -/
theorem step_amid (h : r.Invariant options) (event : Event) :
    r.step event (w.amid (uploadFiles options.path) others) =
      mapWorld (World.amid (uploadFiles options.path) others) (r.step event w) := by
  rw [step.eq_def, step.eq_def]
  cases r.phase with
  | receiving => exact receive_amid others w options h event
  | verified =>
      have hpath : r.options.path ∈ uploadFiles options.path := by
        rw [h.sameOptions]
        exact .output
      cases event with
      | proceed =>
          cases hactive : r.transfer.active with
          | none => rfl
          | some active => exact rename_amid others w (h.sound active hactive).within hpath
      | accepted => rfl
      | header index encoded => rfl
      | payload index bytes => rfl
      | lost status => rfl
  | committed =>
      cases event with
      | proceed => exact complete_amid others w
      | accepted => rfl
      | header index encoded => rfl
      | payload index bytes => rfl
      | lost status => rfl
  | returned status => rfl

end Receiver

end Local

end FileTransferServer

end GridFlux
