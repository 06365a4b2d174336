/-
GridFlux/QuietWorld.lean

Runs in which no system call fails.

A world is quiet when no call to come fails, and every operation of the upload
receiver leaves a quiet world quiet (`Receiver.step_quiet`).  In a quiet world a
call succeeds unless the state of the files forbids it; the lemmas ending in
`_of_quiet` say so for the calls of a transfer that is under way.
-/
import GridFlux.TlsReceiver
import GridFlux.UploadRuns
import GridFlux.VerifiedChunks

namespace GridFlux

open HalfOpen TextCodec

namespace World

variable {w : World}

/-! ### Calls -/

theorem Quiet.setFile (h : w.Quiet) (path : Path) (content : Option Bytes) :
    (w.setFile path content).Quiet := h

theorem Quiet.callsSucceed (h : w.Quiet) (n : Nat) : w.CallsSucceed n :=
  fun outcome houtcome => h outcome (List.mem_of_mem_take houtcome)

theorem Quiet.pathExists (h : w.Quiet) (path : Path) : (w.pathExists path).2.Quiet := by
  rw [World.pathExists, h.nextOutcome]
  exact h.afterCall

theorem Quiet.removePath (h : w.Quiet) (path : Path) : (w.removePath path).2.Quiet := by
  rw [World.removePath, h.nextOutcome]
  show (if _ then _ else _ : Effect Unit).2.Quiet
  split
  · exact h.afterCall
  · exact h.afterCall.setFile _ _

theorem Quiet.renamePath (h : w.Quiet) (source target : Path) :
    (w.renamePath source target).2.Quiet := by
  rw [World.renamePath, h.nextOutcome]
  cases w.files source with
  | none => exact h.afterCall
  | some content =>
      show (if _ then _ else if _ then _ else _ : Effect Unit).2.Quiet
      split
      · exact h.afterCall
      · split
        · exact h.afterCall
        · exact (h.afterCall.setFile _ _).setFile _ _

theorem Quiet.openExisting (h : w.Quiet) (operation : Bytes) (path : Path) :
    (w.openExisting operation path).2.Quiet := by
  rw [World.openExisting, h.nextOutcome]
  show (if _ then _ else if _ then _ else _ : Effect Unit).2.Quiet
  split
  · exact h.afterCall
  · split
    · exact h.afterCall
    · exact h.afterCall

theorem Quiet.openReadWriteExclusive (h : w.Quiet) (path : Path) :
    (w.openReadWriteExclusive path).2.Quiet := by
  rw [World.openReadWriteExclusive, h.nextOutcome]
  show (if _ then _ else _ : Effect Unit).2.Quiet
  split
  · exact h.afterCall
  · exact h.afterCall.setFile _ _

theorem Quiet.writeAtAll (h : w.Quiet) (path : Path) (offset : Nat) (data : Bytes) :
    (w.writeAtAll path offset data).2.Quiet := by
  rw [World.writeAtAll, h.nextOutcome]
  split
  · exact h
  · split
    · exact h
    · exact h.afterCall.setFile _ _

theorem Quiet.resize (h : w.Quiet) (path : Path) (size : Nat) : (w.resize path size).2.Quiet := by
  rw [World.resize, h.nextOutcome]
  split
  · exact h
  · exact h.afterCall.setFile _ _

theorem Quiet.preallocate (h : w.Quiet) (path : Path) (size : Nat) :
    (w.preallocate path size).2.Quiet := by
  rw [World.preallocate, h.nextOutcome]
  split
  · exact h
  · split
    · exact h
    · exact h.afterCall.setFile _ _

theorem Quiet.sync (h : w.Quiet) : w.sync.2.Quiet := by
  rw [World.sync, h.nextOutcome]
  exact h.afterCall

theorem Quiet.fsyncPath (h : w.Quiet) (path : Path) : (w.fsyncPath path).2.Quiet := by
  have hopen : (w.openReadOnly path).2.Quiet := h.openExisting _ path
  rw [World.fsyncPath]
  rcases hresult : w.openReadOnly path with ⟨e | _, w'⟩
  · rw [hresult] at hopen
    exact hopen
  · rw [hresult] at hopen
    exact hopen.sync

theorem Quiet.fsyncParentDirectory (h : w.Quiet) : w.fsyncParentDirectory.2.Quiet := by
  rw [World.fsyncParentDirectory, h.nextOutcome, h.afterCall.nextOutcome]
  exact h.afterCall.afterCall

theorem Quiet.posixFadvise (h : w.Quiet) : w.posixFadvise.2.Quiet := by
  rw [World.posixFadvise, h.nextOutcome]
  exact h.afterCall

theorem Quiet.applyFileIoAdvice (h : w.Quiet) (advice : FileIoAdvice) (length : Nat) :
    (w.applyFileIoAdvice advice length).2.Quiet := by
  have hadvise := h.posixFadvise
  rw [World.applyFileIoAdvice]
  split
  · exact h
  · split
    · exact h
    · rcases hresult : w.posixFadvise with ⟨e | _, w'⟩
      · rw [hresult] at hadvise
        exact hadvise
      · rw [hresult] at hadvise
        show (if _ then _ else _ : Effect Unit).2.Quiet
        split
        · exact hadvise.posixFadvise
        · exact hadvise

theorem Quiet.runWrites (h : w.Quiet) (path : Path) (jobs : List WriteJob) :
    (w.runWrites path jobs).2.Quiet := by
  induction jobs generalizing w with
  | nil => exact h
  | cons job jobs ih =>
      have hwrite := h.writeAtAll path job.offset job.data
      rw [World.runWrites]
      rcases hresult : w.writeAtAll path job.offset job.data with ⟨e | _, w'⟩
      · rw [hresult] at hwrite
        exact hwrite
      · rw [hresult] at hwrite
        exact ih hwrite

/-! ### Manifests -/

theorem Quiet.openTruncate (h : w.Quiet) (operation : Bytes) (path : Path) :
    (w.openTruncate operation path).2.Quiet := by
  rw [World.openTruncate, h.nextOutcome]
  show (if _ then _ else _ : Effect Unit).2.Quiet
  split
  · exact h.afterCall
  · exact h.afterCall.setFile _ _

theorem Quiet.writeAll (h : w.Quiet) (operation : Bytes) (path : Path) (text : Bytes) :
    (w.writeAll operation path text).2.Quiet := by
  rw [World.writeAll, h.nextOutcome]
  exact h.afterCall.setFile _ _

theorem Quiet.close (h : w.Quiet) (operation : Bytes) : (w.close operation).2.Quiet := by
  rw [World.close, h.nextOutcome]
  exact h.afterCall

theorem Quiet.writeTemp (h : w.Quiet) (texts : SaveTexts) (tempPath : Path) (text : Bytes) :
    (w.writeTemp texts tempPath text).2.Quiet := by
  have hopen := h.openTruncate texts.openTemp tempPath
  rw [World.writeTemp]
  rcases hresult : w.openTruncate texts.openTemp tempPath with ⟨e | _, w₁⟩
  · rw [hresult] at hopen
    exact hopen
  · rw [hresult] at hopen
    have hwrite := hopen.writeAll texts.writeTemp tempPath text
    dsimp only
    rcases hresult₁ : w₁.writeAll texts.writeTemp tempPath text with ⟨e | _, w₂⟩
    · rw [hresult₁] at hwrite
      exact hwrite.removePath tempPath
    · rw [hresult₁] at hwrite
      have hclose := hwrite.close texts.closeTemp
      dsimp only
      rcases hresult₂ : w₂.close texts.closeTemp with ⟨e | _, w₃⟩
      · rw [hresult₂] at hclose
        exact hclose.removePath tempPath
      · rw [hresult₂] at hclose
        exact hclose

theorem Quiet.saveAtomic (h : w.Quiet) (texts : SaveTexts) (path : Path) (text : Bytes) :
    (w.saveAtomic texts path text).2.Quiet := by
  have htemp := h.writeTemp texts (w.manifestTempPath path) text
  rw [World.saveAtomic]
  rcases hresult : w.writeTemp texts (w.manifestTempPath path) text with ⟨e | _, w₁⟩
  · rw [hresult] at htemp
    exact htemp
  · rw [hresult] at htemp
    have hrename := htemp.renamePath (w.manifestTempPath path) path
    dsimp only
    rcases hresult₁ : w₁.renamePath (w.manifestTempPath path) path with ⟨e | _, w₂⟩
    · rw [hresult₁] at hrename
      exact hrename.removePath _
    · rw [hresult₁] at hrename
      exact hrename

theorem Quiet.readText_stays (h : w.Quiet) (openFailed readFailed : Bytes) (path : Path) :
    (w.readText openFailed readFailed path).2.Quiet := by
  rw [World.readText, h.nextOutcome]
  cases w.files path with
  | none => exact h.afterCall
  | some text =>
      dsimp only
      rw [h.afterCall.nextOutcome]
      exact h.afterCall.afterCall

theorem Quiet.loadTransferManifest (h : w.Quiet) (path : Path) :
    (loadTransferManifest w path).2.Quiet := by
  have hread := h.readText_stays (ascii "open manifest failed: ") (ascii "read manifest failed: ") path
  rw [GridFlux.loadTransferManifest]
  rcases hresult : w.readText (ascii "open manifest failed: ") (ascii "read manifest failed: ")
    path with ⟨e | text, w'⟩
  · rw [hresult] at hread
    exact hread
  · rw [hresult] at hread
    exact hread

end World

/-! ### Sessions -/

section Sessions

variable {P : Type} (format : SessionFormat P) {w : World}

namespace World

theorem Quiet.save (h : w.Quiet) (s : Session P) : (s.save format w).2.2.Quiet := by
  rw [Session.save]
  cases serializePreparedManifest format.toManifestFormat
      (s.prepareSave format w.nowUnixNanos.1).manifest with
  | error e => exact h
  | ok text =>
      have hnow : w.nowUnixNanos.2.Quiet := h
      have hsave := hnow.saveAtomic format.saveTexts
        (s.prepareSave format w.nowUnixNanos.1).manifestPath text
      dsimp only
      rcases hresult : w.nowUnixNanos.2.saveAtomic format.saveTexts
        (s.prepareSave format w.nowUnixNanos.1).manifestPath text with ⟨e | _, w'⟩
      · rw [hresult] at hsave
        exact hsave
      · rw [hresult] at hsave
        exact hsave

theorem Quiet.recordVerifiedChunk (h : w.Quiet) (s : Session P) (chunkId offset length : Nat)
    (value : ChecksumValue) :
    (s.recordVerifiedChunk format chunkId offset length value w).2.2.Quiet := by
  rw [Session.recordVerifiedChunk]
  split
  · exact h
  · split
    · exact h
    · cases s.manifest.verifiedChunks.find? (s.sameIdentity chunkId offset) with
      | some record =>
          dsimp only
          split
          · exact h
          · exact h
      | none =>
          cases s.completed.insert offset length s.manifest.totalSize with
          | error e => exact h
          | ok completed =>
              dsimp only
              split
              · exact h.save format _
              · exact h

theorem Quiet.verifyLoop (h : w.Quiet) (backend : ChecksumBackend) (path : Path)
    (totalSize : Nat) (records : List ChunkChecksumRecord) (v : Session.VerifyState) :
    (Session.verifyLoop backend path totalSize records v w).2.2.Quiet := by
  induction records generalizing v w with
  | nil => exact h
  | cons record rest ih =>
      have hread := @readChecksumForRecord_stays_quiet record backend path w h
      rw [Session.verifyLoop]
      rcases hresult : readChecksumForRecord w path record backend with ⟨e | actual, w'⟩
      · rw [hresult] at hread
        exact ih hread _
      · rw [hresult] at hread
        dsimp only
        split
        · exact ih hread _
        · cases v.verified.insert record.offset record.length totalSize with
          | error e => exact hread
          | ok verified => exact ih hread _

theorem Quiet.verifyTempChunks (h : w.Quiet) (s : Session P) (path : Path) :
    (s.verifyTempChunks format path w).2.2.Quiet := by
  have hloop := h.verifyLoop s.checksumBackend path s.manifest.totalSize
    s.manifest.verifiedChunks ⟨[], .empty, 0⟩
  rw [Session.verifyTempChunks]
  split
  · exact h
  · rcases hresult : Session.verifyLoop s.checksumBackend path s.manifest.totalSize
      s.manifest.verifiedChunks ⟨[], .empty, 0⟩ w with ⟨e | _, v, w'⟩
    · rw [hresult] at hloop
      exact hloop
    · rw [hresult] at hloop
      dsimp only
      split
      · exact hloop
      · exact hloop.save format _

theorem Quiet.fail (h : w.Quiet) (s : Session P) (reply : FrameStatusCode) (status : Status) :
    (s.fail format reply status w).2.2.Quiet :=
  h.save format _

/-! ### The commit -/

theorem Quiet.finalVerify (h : w.Quiet) (options : CommitOptions) (missing : Bytes)
    (totalSize : Nat) (s : Session P) :
    (finalVerify format options missing totalSize s w).2.2.Quiet := by
  rw [GridFlux.finalVerify]
  split
  · have hsave := h.save format s
    rcases hresult : s.save format w with ⟨e | _, s', w'⟩
    · rw [hresult] at hsave
      exact hsave.fail format _ _ _
    · rw [hresult] at hsave
      exact hsave
  · have hverify := h.verifyTempChunks format s s.manifest.tempPath
    rcases hresult : s.verifyTempChunks format s.manifest.tempPath w with ⟨e | _, s', w'⟩
    · rw [hresult] at hverify
      exact hverify.fail format _ _ _
    · rw [hresult] at hverify
      dsimp only
      split
      · exact hverify.fail format _ _ _
      · exact hverify

theorem Quiet.applyCommitSyncPolicy (h : w.Quiet) (path : Path) (policy : CommitSyncPolicy) :
    (applyCommitSyncPolicy w path policy).2.Quiet := by
  cases policy with
  | none => exact h
  | fsyncFile => exact h.fsyncPath path
  | fsyncFileAndDir =>
      have hsync := h.fsyncPath path
      rw [GridFlux.applyCommitSyncPolicy]
      rcases hresult : w.fsyncPath path with ⟨e | _, w'⟩
      · rw [hresult] at hsync
        exact hsync
      · rw [hresult] at hsync
        exact hsync.fsyncParentDirectory

theorem Quiet.publish (h : w.Quiet) (options : CommitOptions) (s : Session P) :
    (publish format options s w).2.2.Quiet := by
  have hrename := h.renamePath s.manifest.tempPath options.path
  rw [GridFlux.publish]
  rcases hresult : w.renamePath s.manifest.tempPath options.path with ⟨e | _, w₁⟩
  · rw [hresult] at hrename
    exact hrename.fail format _ _ _
  · rw [hresult] at hrename
    have hsync := hrename.applyCommitSyncPolicy options.path options.commitSyncPolicy
    dsimp only
    rw [sealOutput]
    rcases hresult₁ : GridFlux.applyCommitSyncPolicy w₁ options.path options.commitSyncPolicy with
      ⟨e | _, w₂⟩
    · rw [hresult₁] at hsync
      exact hsync.fail format _ _ _
    · rw [hresult₁] at hsync
      have hmark := hsync.save format
        { s with manifest := { s.manifest with state := .committed } }
      dsimp only
      rw [Session.markCommitted]
      rcases hresult₂ : ({ s with manifest := { s.manifest with state := .committed } } :
        Session P).save format w₂ with ⟨e | _, s', w₃⟩
      · rw [hresult₂] at hmark
        exact hmark
      · rw [hresult₂] at hmark
        exact hmark

end World

end Sessions

/-! ### The receiver -/

namespace FileTransferServer

variable {w : World}

theorem quiet_checkReceived (h : w.Quiet) (options : FileTransferOptions) (totalSize : Nat)
    (s : TransferSession) : (checkReceived options totalSize s w).2.2.Quiet := by
  rw [checkReceived]
  split
  · exact h.fail _ _ _ _
  · have hverify := h.finalVerify transferSessionFormat options.toCommitOptions
      (ascii "final verify found missing ranges") totalSize s
    rcases hresult : finalVerify transferSessionFormat options.toCommitOptions
      (ascii "final verify found missing ranges") totalSize s w with ⟨e | _, s₁, w₁⟩
    · rw [hresult] at hverify
      exact hverify
    · rw [hresult] at hverify
      have hsave := hverify.save transferSessionFormat s₁
      dsimp only
      rcases hresult₁ : s₁.save transferSessionFormat w₁ with ⟨e | _, s₂, w₂⟩
      · rw [hresult₁] at hsave
        exact hsave.fail _ _ _ _
      · rw [hresult₁] at hsave
        have hexists := hsave.pathExists options.path
        dsimp only
        rcases hresult₂ : w₂.pathExists options.path with ⟨e | found, w₃⟩
        · rw [hresult₂] at hexists
          exact hexists.fail _ _ _ _
        · rw [hresult₂] at hexists
          dsimp only
          split
          · exact hexists.fail _ _ _ _
          · exact hexists

theorem quiet_openOutputForSession (h : w.Quiet) (options : FileTransferOptions)
    (tempPath : Path) (totalSize : Nat) :
    (openOutputForSession options tempPath totalSize w).2.Quiet := by
  rw [openOutputForSession]
  split
  · have hopen : (w.openReadWrite tempPath).2.Quiet := h.openExisting _ tempPath
    rcases hresult : w.openReadWrite tempPath with ⟨e | _, w₁⟩
    · rw [hresult] at hopen
      exact hopen
    · rw [hresult] at hopen
      exact hopen.applyFileIoAdvice _ _
  · have hopen := h.openReadWriteExclusive tempPath
    rcases hresult : w.openReadWriteExclusive tempPath with ⟨e | _, w₁⟩
    · rw [hresult] at hopen
      exact hopen
    · rw [hresult] at hopen
      have hallocate : (if totalSize > 0 ∧ options.preallocateMode = .full then
          w₁.preallocate tempPath totalSize else (.ok (), w₁)).2.Quiet := by
        split
        · exact hopen.preallocate tempPath totalSize
        · exact hopen
      dsimp only
      rcases hresult₁ : (if totalSize > 0 ∧ options.preallocateMode = .full then
          w₁.preallocate tempPath totalSize else (.ok (), w₁)) with ⟨e | _, w₂⟩
      · rw [hresult₁] at hallocate
        exact hallocate
      · rw [hresult₁] at hallocate
        have hresize := hallocate.resize tempPath totalSize
        dsimp only
        rcases hresult₂ : w₂.resize tempPath totalSize with ⟨e | _, w₃⟩
        · rw [hresult₂] at hresize
          exact hresize
        · rw [hresult₂] at hresize
          exact hresize.applyFileIoAdvice _ _

theorem quiet_openSession (h : w.Quiet) (options : FileTransferOptions)
    (init : SessionInitPayload) : (openSession options init w).2.Quiet := by
  have hopens : (if init.mode = .resume then
      TransferSession.resume (sessionRequest options init) w
      else TransferSession.createNew (sessionRequest options init) w).2.Quiet := by
    split
    · rw [TransferSession.resume]
      cases TransferSession.validateSessionInputs (sessionRequest options init) with
      | error e => exact h
      | ok _ =>
          cases resolveChecksumBackend w.crc32cHardwareAvailable
              (sessionRequest options init).checksumAlgorithm
              (sessionRequest options init).checksumBackend with
          | error e => exact h
          | ok backend =>
              have hload := h.loadTransferManifest
                (manifestPathForOutput (sessionRequest options init).paths.outputPath)
              dsimp only
              rcases hresult : loadTransferManifest w
                (manifestPathForOutput (sessionRequest options init).paths.outputPath) with
                ⟨e | manifest, w₁⟩
              · rw [hresult] at hload
                exact hload
              · rw [hresult] at hload
                dsimp only
                cases TransferSession.accept (sessionRequest options init) manifest with
                | error e => exact hload
                | ok found => exact hload
    · rw [TransferSession.createNew]
      cases TransferSession.validateSessionInputs (sessionRequest options init) with
      | error e => exact h
      | ok _ =>
          cases resolveChecksumBackend w.crc32cHardwareAvailable
              (sessionRequest options init).checksumAlgorithm
              (sessionRequest options init).checksumBackend with
          | error e => exact h
          | ok backend => exact h
  rw [openSession]
  rcases hresult : (if init.mode = .resume then
      TransferSession.resume (sessionRequest options init) w
      else TransferSession.createNew (sessionRequest options init) w) with ⟨e | s, w₁⟩
  · rw [hresult] at hopens
    exact hopens
  · rw [hresult] at hopens
    exact hopens

theorem quiet_prepareSession (h : w.Quiet) (options : FileTransferOptions)
    (init : SessionInitPayload) (s : TransferSession) :
    (prepareSession options init s w).2.2.Quiet := by
  have hopen := quiet_openOutputForSession h options s.manifest.tempPath init.totalSize.toNat
  rw [prepareSession]
  rcases hresult : openOutputForSession options s.manifest.tempPath init.totalSize.toNat w with
    ⟨e | _, w₁⟩
  · rw [hresult] at hopen
    exact hopen
  · rw [hresult] at hopen
    have hverify : (if init.mode = .resume then
        s.verifyTempChunks transferSessionFormat s.manifest.tempPath w₁
        else (.ok (), s, w₁)).2.2.Quiet := by
      split
      · exact hopen.verifyTempChunks _ s _
      · exact hopen
    dsimp only
    rcases hresult₁ : (if init.mode = .resume then
        s.verifyTempChunks transferSessionFormat s.manifest.tempPath w₁
        else (.ok (), s, w₁)) with ⟨e | _, s₂, w₂⟩
    · rw [hresult₁] at hverify
      exact hverify
    · rw [hresult₁] at hverify
      have hsave := hverify.save transferSessionFormat s₂
      dsimp only
      rcases hresult₂ : s₂.save transferSessionFormat w₂ with ⟨e | _, s₃, w₃⟩
      · rw [hresult₂] at hsave
        exact hsave
      · rw [hresult₂] at hsave
        exact hsave

theorem quiet_initializeSession (h : w.Quiet) (options : FileTransferOptions)
    (init : SessionInitPayload) (active : Option ActiveTransfer) :
    (initializeSession options init active w).2.2.Quiet := by
  rw [initializeSession]
  cases checkSessionInit options init with
  | error e => exact h
  | ok _ =>
      cases resolveChecksumBackend w.crc32cHardwareAvailable init.checksumAlgorithm
          options.checksumBackend with
      | error e => exact h
      | ok backend =>
          cases active with
          | some active => exact h
          | none =>
              have hopens := quiet_openSession h options init
              dsimp only
              rcases hresult : openSession options init w with ⟨e | s, w₁⟩
              · rw [hresult] at hopens
                exact hopens
              · rw [hresult] at hopens
                exact quiet_prepareSession hopens options init s

theorem sendFrame_of_quiet (h : w.Quiet) : sendFrame w = (.ok (), w.afterCall) := by
  rw [sendFrame, h.nextOutcome]

theorem sendStatusToConnections_of_quiet (h : w.Quiet) (connections : Nat) :
    (sendStatusToConnections connections w).1 = .ok () ∧
      (sendStatusToConnections connections w).2.Quiet := by
  induction connections generalizing w with
  | zero => exact ⟨rfl, h⟩
  | succ connections ih =>
      rw [sendStatusToConnections, sendFrame_of_quiet h]
      exact ih h.afterCall

theorem quiet_processSessionInitPayload (h : w.Quiet) (options : FileTransferOptions)
    (index : Nat) (c : FileServerConnection) (t : TransferState) (bytes : Bytes) :
    (processSessionInitPayload options index c t bytes w).2.2.2.Quiet := by
  rw [processSessionInitPayload]
  cases decodeSessionInitPayload bytes with
  | error e => exact h
  | ok init =>
      have hinit := quiet_initializeSession h options init t.active
      dsimp only
      rcases hresult : initializeSession options init t.active w with ⟨e | _, after, w₁⟩
      · rw [hresult] at hinit
        exact hinit
      · rw [hresult] at hinit
        cases after with
        | none => exact hinit
        | some active =>
            dsimp only
            cases resumeResponse options { c with sessionReady := true } active with
            | error e => exact hinit
            | ok frame =>
                dsimp only
                rw [sendFrame_of_quiet hinit]
                exact hinit.afterCall

theorem quiet_processDataPayload (h : w.Quiet) (c : FileServerConnection)
    (active : ActiveTransfer) (bytes : Bytes) :
    (processDataPayload c active bytes w).2.Quiet := by
  have hends := processDataPayload_ends c active bytes w
  generalize processDataPayload c active bytes w = result at hends ⊢
  cases hends with
  | refused e => exact h
  | @written b status w' result hb hnext hrun hresult =>
      have hwrites := h.runWrites active.session.manifest.tempPath
        (b.writer.write b.currentHeader.offset.toNat bytes).1
      rw [hrun] at hwrites
      exact hwrites

theorem quiet_processChunkCompletePayload (h : w.Quiet) (c : FileServerConnection)
    (active : ActiveTransfer) (bytes : Bytes) :
    (processChunkCompletePayload c active bytes w).2.2.Quiet := by
  rw [processChunkCompletePayload]
  cases checkChunkComplete c active bytes with
  | error e => exact h
  | ok payload =>
      have hflush := h.runWrites active.session.manifest.tempPath c.writer.flush.1
      dsimp only
      rcases hresult : w.runWrites active.session.manifest.tempPath c.writer.flush.1 with
        ⟨e | _, w₁⟩
      · rw [hresult] at hflush
        exact hflush
      · rw [hresult] at hflush
        dsimp only
        split
        · exact hflush
        · have hrecord := hflush.recordVerifiedChunk transferSessionFormat active.session
            payload.chunkId.toNat payload.offset.toNat payload.length.toNat payload.checksum
          rcases hresult₁ : active.session.recordVerifiedChunk transferSessionFormat
              payload.chunkId.toNat payload.offset.toNat payload.length.toNat payload.checksum w₁
            with ⟨e | _, s, w₂⟩
          · rw [hresult₁] at hrecord
            exact hrecord
          · rw [hresult₁] at hrecord
            exact hrecord

theorem quiet_processCompletedPayload (h : w.Quiet) (options : FileTransferOptions) (index : Nat)
    (c : FileServerConnection) (t : TransferState) (bytes : Bytes) :
    (processCompletedPayload options index c t bytes w).2.2.2.Quiet := by
  rw [processCompletedPayload]
  split
  · exact quiet_processSessionInitPayload h options index c t bytes
  · cases t.active with
    | none => exact h
    | some active =>
        dsimp only
        split
        · have hchunk := quiet_processChunkCompletePayload h c active bytes
          rcases hresult : processChunkCompletePayload c active bytes w with ⟨e | c', s, w₁⟩
          · rw [hresult] at hchunk
            exact hchunk
          · rw [hresult] at hchunk
            exact hchunk
        · have hdata := quiet_processDataPayload h c active bytes
          rcases hresult : processDataPayload c active bytes w with ⟨e | c', w₁⟩
          · rw [hresult] at hdata
            exact hdata
          · rw [hresult] at hdata
            exact hdata

namespace Receiver

variable (r : Receiver)

theorem quiet_abort (h : w.Quiet) (e : TransferError) : (r.abort e w).2.Quiet := by
  rw [abort]
  cases r.transfer.active with
  | none => exact h
  | some active => exact h.save transferSessionFormat _

theorem quiet_receive (h : w.Quiet) (event : Event) : (r.receive event w).2.Quiet := by
  cases event with
  | accepted =>
      rw [receive]
      split
      · exact h
      · exact h
  | header index encoded =>
      rw [receive]
      cases r.connections[index]? with
      | none => exact h
      | some c =>
          dsimp only
          split
          · cases processCompletedHeader r.options c r.transfer encoded with
            | error e => exact r.quiet_abort h e
            | ok next => exact h
          · exact h
  | payload index bytes =>
      rw [receive]
      cases r.connections[index]? with
      | none => exact h
      | some c =>
          dsimp only
          split
          · have hpayload := quiet_processCompletedPayload h r.options index c r.transfer bytes
            rcases hresult : processCompletedPayload r.options index c r.transfer bytes w with
              ⟨e | _, c', t, w₁⟩
            · rw [hresult] at hpayload
              exact quiet_abort _ hpayload e
            · rw [hresult] at hpayload
              exact hpayload
          · exact h
  | lost status => exact r.quiet_abort h _
  | proceed =>
      rw [receive]
      cases r.transfer.active with
      | none => exact h
      | some active =>
          dsimp only
          split
          · split
            · exact h.save transferSessionFormat _
            · have hcheck := quiet_checkReceived h r.options active.init.totalSize.toNat
                active.session
              rw [verify]
              rcases hresult : checkReceived r.options active.init.totalSize.toNat active.session w
                with ⟨e | _, s, w₁⟩
              · rw [hresult] at hcheck
                exact hcheck
              · rw [hresult] at hcheck
                exact hcheck
          · exact h

theorem quiet_rename (h : w.Quiet) (active : ActiveTransfer) : (r.rename active w).2.Quiet := by
  have hpublish := h.publish transferSessionFormat r.options.toCommitOptions active.session
  rw [Receiver.rename]
  rcases hresult : publish transferSessionFormat r.options.toCommitOptions active.session w with
    ⟨e | _, s, w₁⟩
  · rw [hresult] at hpublish
    exact hpublish
  · rw [hresult] at hpublish
    exact hpublish

/-- **The system calls stay quiet** over every event. -/
theorem quiet_step (h : w.Quiet) (event : Event) : (r.step event w).2.Quiet := by
  cases hphase : r.phase with
  | receiving =>
      simp only [step, hphase]
      exact r.quiet_receive h event
  | verified =>
      cases event with
      | proceed =>
          cases hactive : r.transfer.active with
          | none =>
              simp only [step, hphase, hactive]
              exact h
          | some active =>
              simp only [step, hphase, hactive]
              exact r.quiet_rename h active
      | accepted | header _ _ | payload _ _ | lost _ =>
          simp only [step, hphase]
          exact h
  | committed =>
      cases event with
      | proceed =>
          simp only [step, hphase, complete]
          exact (sendStatusToConnections_of_quiet h _).2
      | accepted | header _ _ | payload _ _ | lost _ =>
          simp only [step, hphase]
          exact h
  | returned status =>
      simp only [step, hphase]
      exact h

end Receiver

end FileTransferServer

end GridFlux
