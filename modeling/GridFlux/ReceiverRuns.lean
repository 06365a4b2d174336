/-
GridFlux/ReceiverRuns.lean

What a step of the upload receiver does to its session and to the files.

Whatever the event, there are three possibilities (`SessionStep`): there is no
session and no file changes; a session is opened and used; the session that is
there is used.  The handlers are looked at once, for `Receiver.step_session`;
the invariants of runs are derived from it.
-/
import GridFlux.FileTransferServer

namespace GridFlux

open HalfOpen TextCodec

namespace FileTransferServer

/-- The files a receiver changes by itself, next to those of its session. -/
def ownFiles (options : FileTransferOptions) (s : TransferSession) : Set Path :=
  {s.manifest.tempPath, options.path}

/-- What a step made in `w` does to the session and the files; `S` are the files
it may change besides those of its session. -/
inductive SessionStep (S : Set Path) (options : FileTransferOptions) (w : World) :
    Option ActiveTransfer → Option ActiveTransfer → World → Prop
  | idle {w' : World} (h : World.Frame ∅ w w') : SessionStep S options w none none w'
  | opened {init : SessionInitPayload} {s₀ s : TransferSession} {w₀ w' : World}
      (hinit : checkSessionInit options init = .ok ())
      (hopens : openSession options init w = (.ok s₀, w₀))
      (h : Session.Calls transferSessionFormat (insert s₀.manifest.tempPath S) s₀ w₀ s w') :
      SessionStep S options w none (some ⟨init, s⟩) w'
  | called {active : ActiveTransfer} {s' : TransferSession} {w' : World}
      (h : Session.Calls transferSessionFormat (insert active.session.manifest.tempPath S)
        active.session w s' w') :
      SessionStep S options w (some active) (some { active with session := s' }) w'

namespace SessionStep

variable {S : Set Path} {options : FileTransferOptions} {w w₁ w' : World}
  {before : Option ActiveTransfer} {active : ActiveTransfer}

/-- A step that goes on using the session it has left. -/
theorem andCalls (h : SessionStep S options w before (some active) w₁) {s' : TransferSession}
    (hcalls : Session.Calls transferSessionFormat (insert active.session.manifest.tempPath S)
      active.session w₁ s' w') :
    SessionStep S options w before (some { active with session := s' }) w' := by
  cases h with
  | opened hinit hopens h =>
      rw [show (ActiveTransfer.session _).manifest.tempPath = _ from h.tempPath] at hcalls
      exact .opened hinit hopens (h.trans hcalls)
  | called h =>
      rw [show (ActiveTransfer.session _).manifest.tempPath = _ from h.tempPath] at hcalls
      exact .called (h.trans hcalls)

/-- A step that goes on without changing a file. -/
theorem andFrame {after : Option ActiveTransfer} (h : SessionStep S options w before after w₁)
    (hframe : World.Frame ∅ w₁ w') : SessionStep S options w before after w' := by
  cases after with
  | none =>
      cases h with
      | idle h => exact .idle (h.trans hframe)
  | some active => exact h.andCalls (.framed (hframe.mono (Set.empty_subset _)))

/-- A step that leaves everything as it was. -/
theorem refl (options : FileTransferOptions) (before : Option ActiveTransfer) (w : World) :
    SessionStep S options w before before w := by
  cases before with
  | none => exact .idle (World.Frame.refl w)
  | some active => exact .called (.framed ((World.Frame.refl w).mono (Set.empty_subset _)))

end SessionStep

section

variable {S : Set Path}

/-! ### Opening -/

/-- A session that is resumed leaves its temp file as it finds it. -/
theorem openOutputForSession_resumed {options : FileTransferOptions} (h : options.resume = true)
    (tempPath : Path) (totalSize : Nat) (w : World) :
    World.Frame ∅ w (openOutputForSession options tempPath totalSize w).2 := by
  rw [openOutputForSession, if_pos h]
  have hopen := World.openExisting_frame w (ascii "open read-write") tempPath
  rcases h : w.openReadWrite tempPath with ⟨e | _, w₁⟩
  · rw [World.openReadWrite] at h
    rw [h] at hopen
    exact hopen
  · rw [World.openReadWrite] at h
    rw [h] at hopen
    exact hopen.trans (w₁.applyFileIoAdvice_frame _ _)

theorem openOutputForSession_frame (options : FileTransferOptions) (tempPath : Path)
    (totalSize : Nat) (w : World) :
    World.Frame {tempPath} w (openOutputForSession options tempPath totalSize w).2 := by
  by_cases hresume : options.resume = true
  · exact (openOutputForSession_resumed hresume tempPath totalSize w).mono (Set.empty_subset _)
  · rw [openOutputForSession, if_neg hresume]
    have hopen := w.openReadWriteExclusive_frame tempPath
    rcases h : w.openReadWriteExclusive tempPath with ⟨e | _, w₁⟩
    · rw [h] at hopen
      exact hopen
    · rw [h] at hopen
      have hallocate : World.Frame {tempPath} w₁ (if totalSize > 0 ∧ options.preallocateMode = .full
          then w₁.preallocate tempPath totalSize else (.ok (), w₁)).2 := by
        split
        · exact w₁.preallocate_frame tempPath totalSize
        · exact (World.Frame.refl w₁).mono (Set.empty_subset _)
      rcases h' : (if totalSize > 0 ∧ options.preallocateMode = .full
          then w₁.preallocate tempPath totalSize else (.ok (), w₁)) with ⟨e | _, w₂⟩
      · rw [h'] at hallocate
        simp only [h']
        exact hopen.trans hallocate
      · rw [h'] at hallocate
        have hresize := w₂.resize_frame tempPath totalSize
        simp only [h']
        rcases h'' : w₂.resize tempPath totalSize with ⟨e | _, w₃⟩
        · rw [h''] at hresize
          exact (hopen.trans hallocate).trans hresize
        · rw [h''] at hresize
          exact ((hopen.trans hallocate).trans hresize).trans
            ((w₃.applyFileIoAdvice_frame _ _).mono (Set.empty_subset _))

theorem openSession_frame {options : FileTransferOptions} {init : SessionInitPayload}
    {w w' : World} {result : Except TransferError TransferSession}
    (h : openSession options init w = (result, w')) : World.Frame ∅ w w' := by
  have hopen : World.Frame ∅ w
      (if init.mode = .resume then TransferSession.resume (sessionRequest options init) w
        else TransferSession.createNew (sessionRequest options init) w).2 := by
    split
    · exact TransferSession.resume_frame rfl
    · exact TransferSession.createNew_frame rfl
  rw [openSession] at h
  rcases hresult : (if init.mode = .resume
      then TransferSession.resume (sessionRequest options init) w
      else TransferSession.createNew (sessionRequest options init) w) with ⟨e | s, w₁⟩
  · rw [hresult] at hopen
    simp only [hresult, Prod.mk.injEq] at h
    rw [← h.2]
    exact hopen
  · rw [hresult] at hopen
    simp only [hresult, Prod.mk.injEq] at h
    rw [← h.2]
    exact hopen

/-- Once the temp file is opened, a session is prepared by its own operations. -/
theorem prepareSession_afterOpening (options : FileTransferOptions) (init : SessionInitPayload)
    (s : TransferSession) (w : World) :
    Session.QuietCalls transferSessionFormat ∅ s
      (openOutputForSession options s.manifest.tempPath init.totalSize.toNat w).2
      (prepareSession options init s w).2.1 (prepareSession options init s w).2.2 := by
  rw [prepareSession]
  rcases openOutputForSession options s.manifest.tempPath init.totalSize.toNat w with ⟨e | _, w₁⟩
  · exact .framed (World.Frame.refl w₁)
  · have hverify : Session.QuietCalls transferSessionFormat ∅ s w₁
        (if init.mode = .resume then
          s.verifyTempChunks transferSessionFormat s.manifest.tempPath w₁
          else (.ok (), s, w₁)).2.1
        (if init.mode = .resume then
          s.verifyTempChunks transferSessionFormat s.manifest.tempPath w₁
          else (.ok (), s, w₁)).2.2 := by
      split
      · exact .op (.verifyTempChunks s.manifest.tempPath) rfl
      · exact .framed (World.Frame.refl w₁)
    rcases h : (if init.mode = .resume then
        s.verifyTempChunks transferSessionFormat s.manifest.tempPath w₁
        else (.ok (), s, w₁)) with ⟨e | _, s₂, w₂⟩
    · rw [h] at hverify
      simp only [h]
      exact hverify
    · rw [h] at hverify
      have hsave : Session.QuietCalls transferSessionFormat ∅ s₂ w₂
        (s₂.save transferSessionFormat w₂).2.1 (s₂.save transferSessionFormat w₂).2.2 := .op .save rfl
      simp only [h]
      rcases h' : s₂.save transferSessionFormat w₂ with ⟨e | _, s₃, w₃⟩
      · rw [h'] at hsave
        exact hverify.trans hsave
      · rw [h'] at hsave
        exact hverify.trans hsave

theorem prepareSession_quiet (options : FileTransferOptions) (init : SessionInitPayload)
    (s : TransferSession) (w : World) :
    Session.QuietCalls transferSessionFormat {s.manifest.tempPath} s w
      (prepareSession options init s w).2.1 (prepareSession options init s w).2.2 := by
  have hopen : Session.QuietCalls transferSessionFormat {s.manifest.tempPath} s w s _ :=
    .framed (openOutputForSession_frame options s.manifest.tempPath init.totalSize.toNat w)
  exact hopen.trans ((prepareSession_afterOpening options init s w).mono (Set.empty_subset _))

theorem prepareSession_calls (options : FileTransferOptions) (init : SessionInitPayload)
    (s : TransferSession) (w : World) :
    Session.Calls transferSessionFormat {s.manifest.tempPath} s w
      (prepareSession options init s w).2.1 (prepareSession options init s w).2.2 :=
  (prepareSession_quiet options init s w).calls

theorem initializeSession_step {options : FileTransferOptions} {init : SessionInitPayload}
    {before after : Option ActiveTransfer} {w w' : World} {result : Except TransferError Unit}
    (h : initializeSession options init before w = (result, after, w')) :
    SessionStep S options w before after w' := by
  rw [initializeSession] at h
  cases hinit : checkSessionInit options init with
  | error e =>
      simp only [hinit, Prod.mk.injEq] at h
      obtain ⟨-, rfl, rfl⟩ := h
      exact .refl options _ _
  | ok _ =>
      cases hbackend : resolveChecksumBackend w.crc32cHardwareAvailable init.checksumAlgorithm
          options.checksumBackend with
      | error e =>
          simp only [hinit, hbackend, Prod.mk.injEq] at h
          obtain ⟨-, rfl, rfl⟩ := h
          exact .refl options _ _
      | ok backend =>
          cases before with
          | some active =>
              simp only [hinit, hbackend, Prod.mk.injEq] at h
              obtain ⟨-, rfl, rfl⟩ := h
              exact .refl options _ _
          | none =>
              rcases hopens : openSession options init w with ⟨e | s₀, w₀⟩
              · simp only [hinit, hbackend, hopens, Prod.mk.injEq] at h
                obtain ⟨-, rfl, rfl⟩ := h
                exact .idle (openSession_frame hopens)
              · simp only [hinit, hbackend, hopens, Prod.mk.injEq] at h
                obtain ⟨-, rfl, rfl⟩ := h
                exact .opened hinit hopens ((prepareSession_calls options init s₀ w₀).mono
                  (Set.singleton_subset_iff.mpr (Set.mem_insert _ _)))

/-- A session that has been initialized is there. -/
theorem initializeSession_active {options : FileTransferOptions} {init : SessionInitPayload}
    {before after : Option ActiveTransfer} {w w' : World} {u : Unit}
    (h : initializeSession options init before w = (.ok u, after, w')) : after ≠ none := by
  rw [initializeSession] at h
  rcases hcheck : checkSessionInit options init with e | _
  · rw [hcheck] at h
    cases h
  · rw [hcheck] at h
    dsimp only at h
    rcases hbackend : resolveChecksumBackend w.crc32cHardwareAvailable init.checksumAlgorithm
        options.checksumBackend with e | backend
    · rw [hbackend] at h
      cases h
    · rw [hbackend] at h
      rcases before with _ | active
      · dsimp only at h
        rcases hopen : openSession options init w with ⟨e | s, w₁⟩
        · rw [hopen] at h
          cases h
        · rw [hopen] at h
          have hafter := (Prod.mk.inj (Prod.mk.inj h).2).1
          rw [← hafter]
          exact Option.some_ne_none _
      · have hafter := (Prod.mk.inj (Prod.mk.inj h).2).1
        rw [← hafter]
        exact Option.some_ne_none _

/-! ### Payloads -/

theorem processSessionInitPayload_step (options : FileTransferOptions) (index : Nat)
    (connection : FileServerConnection) (transfer : TransferState) (bytes : Bytes) (w : World) :
    SessionStep S options w transfer.active
      (processSessionInitPayload options index connection transfer bytes w).2.2.1.active
      (processSessionInitPayload options index connection transfer bytes w).2.2.2 := by
  rw [processSessionInitPayload]
  cases decodeSessionInitPayload bytes with
  | error e => exact .refl options _ w
  | ok init =>
      have hstep : ∀ result after w', initializeSession options init transfer.active w =
          (result, after, w') → SessionStep S options w transfer.active after w' := fun _ _ _ h =>
        initializeSession_step h
      rcases h : initializeSession options init transfer.active w with ⟨e | _, _ | active, w₁⟩
      · simp only [h]
        exact hstep _ _ _ h
      · simp only [h]
        exact hstep _ _ _ h
      · simp only [h]
        have hnone := hstep _ _ _ h
        generalize transfer.active = before at hnone ⊢
        cases hnone with
        | idle hframe => exact .idle hframe
      · simp only [h]
        cases resumeResponse options { connection with sessionReady := true } active with
        | error e => exact hstep _ _ _ h
        | ok frame =>
            have hsend := sendFrame_frame w₁
            rcases h' : sendFrame w₁ with ⟨e | _, w₂⟩
            · rw [h'] at hsend
              exact (hstep _ _ _ h).andFrame hsend
            · rw [h'] at hsend
              exact (hstep _ _ _ h).andFrame hsend

theorem processDataPayload_frame (connection : FileServerConnection) (active : ActiveTransfer)
    (bytes : Bytes) (w : World) :
    World.Frame {active.session.manifest.tempPath} w
      (processDataPayload connection active bytes w).2 := by
  rw [processDataPayload]
  split
  · exact (World.Frame.refl w).mono (Set.empty_subset _)
  · generalize (beginChunk connection active w.crc32cHardwareAvailable).writer.write _ bytes = jobs
    have hwrites := w.runWrites_frame active.session.manifest.tempPath jobs.1
    rcases h : w.runWrites active.session.manifest.tempPath jobs.1 with ⟨e | _, w₁⟩
    · rw [h] at hwrites
      simp only [h]
      exact hwrites
    · rw [h] at hwrites
      simp only [h]
      exact hwrites

theorem processChunkCompletePayload_calls (connection : FileServerConnection)
    (active : ActiveTransfer) (bytes : Bytes) (w : World) :
    Session.Calls transferSessionFormat {active.session.manifest.tempPath} active.session w
      (processChunkCompletePayload connection active bytes w).2.1
      (processChunkCompletePayload connection active bytes w).2.2 := by
  rw [processChunkCompletePayload]
  cases checkChunkComplete connection active bytes with
  | error e => exact .framed ((World.Frame.refl w).mono (Set.empty_subset _))
  | ok payload =>
      have hwrites : Session.Calls transferSessionFormat {active.session.manifest.tempPath}
          active.session w active.session _ := .framed
        (w.runWrites_frame active.session.manifest.tempPath connection.writer.flush.1)
      rcases h : w.runWrites active.session.manifest.tempPath connection.writer.flush.1
        with ⟨e | _, w₁⟩
      · rw [h] at hwrites
        exact hwrites
      · rw [h] at hwrites
        simp only
        split
        · exact hwrites
        · have hrecord : Session.Calls transferSessionFormat
              {active.session.manifest.tempPath} active.session w₁
              (active.session.recordVerifiedChunk transferSessionFormat payload.chunkId.toNat
                payload.offset.toNat payload.length.toNat payload.checksum w₁).2.1
              (active.session.recordVerifiedChunk transferSessionFormat payload.chunkId.toNat
                payload.offset.toNat payload.length.toNat payload.checksum w₁).2.2 :=
            .op (.recordVerifiedChunk payload.chunkId payload.offset payload.length
              payload.checksum)
          rcases h' : active.session.recordVerifiedChunk transferSessionFormat
            payload.chunkId.toNat payload.offset.toNat payload.length.toNat payload.checksum w₁
            with ⟨e | _, s, w₂⟩
          · rw [h'] at hrecord
            exact hwrites.trans hrecord
          · rw [h'] at hrecord
            exact hwrites.trans hrecord

theorem processCompletedPayload_step (options : FileTransferOptions) (index : Nat)
    (connection : FileServerConnection) (transfer : TransferState) (bytes : Bytes) (w : World) :
    SessionStep S options w transfer.active
      (processCompletedPayload options index connection transfer bytes w).2.2.1.active
      (processCompletedPayload options index connection transfer bytes w).2.2.2 := by
  rw [processCompletedPayload]
  split
  · exact processSessionInitPayload_step options index connection transfer bytes w
  · cases hactive : transfer.active with
    | none =>
        simp only [hactive]
        exact .refl options _ w
    | some active =>
        have hown : {active.session.manifest.tempPath} ⊆
            insert active.session.manifest.tempPath S :=
          Set.singleton_subset_iff.mpr (Set.mem_insert _ _)
        simp only
        split
        · have hcalls := (processChunkCompletePayload_calls connection active bytes w).mono hown
          rcases h : processChunkCompletePayload connection active bytes w
            with ⟨e | connection', s, w₁⟩
          · rw [h] at hcalls
            exact .called hcalls
          · rw [h] at hcalls
            exact .called hcalls
        · have hframe := (processDataPayload_frame connection active bytes w).mono hown
          rcases h : processDataPayload connection active bytes w with ⟨e | connection', w₁⟩
          · rw [h] at hframe
            simp only [hactive]
            exact .called (.framed hframe)
          · rw [h] at hframe
            simp only [hactive]
            exact .called (.framed hframe)

/-! ### The receiver -/

theorem checkReceived_quiet (options : FileTransferOptions) (totalSize : Nat)
    (s : TransferSession) (w : World) :
    Session.QuietCalls transferSessionFormat ∅ s w (checkReceived options totalSize s w).2.1
      (checkReceived options totalSize s w).2.2 := by
  rw [checkReceived]
  split
  · exact s.fail_quiet transferSessionFormat _ _ w
  · have hverify := finalVerify_quiet transferSessionFormat options.toCommitOptions
      (ascii "final verify found missing ranges") totalSize s w
    rcases h : finalVerify transferSessionFormat options.toCommitOptions
      (ascii "final verify found missing ranges") totalSize s w with ⟨e | _, s₁, w₁⟩
    · rw [h] at hverify
      exact hverify
    · rw [h] at hverify
      have hsave : Session.QuietCalls transferSessionFormat ∅ s₁ w₁
        (s₁.save transferSessionFormat w₁).2.1 (s₁.save transferSessionFormat w₁).2.2 := .op .save rfl
      simp only
      rcases h' : s₁.save transferSessionFormat w₁ with ⟨e | _, s₂, w₂⟩
      · rw [h'] at hsave
        exact (hverify.trans hsave).trans (s₂.fail_quiet transferSessionFormat _ _ w₂)
      · rw [h'] at hsave
        have hexists : Session.QuietCalls transferSessionFormat ∅ s₂ w₂ s₂ _ :=
          .framed (w₂.pathExists_frame options.path)
        simp only
        rcases h'' : w₂.pathExists options.path with ⟨e | outputExists, w₃⟩
        · rw [h''] at hexists
          exact ((hverify.trans hsave).trans hexists).trans (s₂.fail_quiet transferSessionFormat _ _ w₃)
        · rw [h''] at hexists
          simp only
          split
          · exact ((hverify.trans hsave).trans hexists).trans (s₂.fail_quiet transferSessionFormat _ _ w₃)
          · exact (hverify.trans hsave).trans hexists

theorem checkReceived_calls (options : FileTransferOptions) (totalSize : Nat)
    (s : TransferSession) (w : World) :
    Session.Calls transferSessionFormat ∅ s w (checkReceived options totalSize s w).2.1
      (checkReceived options totalSize s w).2.2 :=
  (checkReceived_quiet options totalSize s w).calls

namespace Receiver

@[simp] theorem finish_active (r : Receiver) (e : TransferError) :
    (r.finish e).transfer.active = r.transfer.active := rfl

@[simp] theorem finish_options (r : Receiver) (e : TransferError) :
    (r.finish e).options = r.options := rfl

@[simp] theorem finish_connections (r : Receiver) (e : TransferError) :
    (r.finish e).connections = r.connections := rfl

theorem abort_step {options : FileTransferOptions} {before : Option ActiveTransfer} {r : Receiver}
    {e : TransferError} {w w₁ : World} (h : SessionStep S options w before r.transfer.active w₁) :
    SessionStep S options w before (r.abort e w₁).1.transfer.active (r.abort e w₁).2 := by
  rw [abort]
  cases hactive : r.transfer.active with
  | none =>
      rw [hactive] at h
      show SessionStep S options w before r.transfer.active w₁
      rw [hactive]
      exact h
  | some active =>
      rw [hactive] at h
      exact h.andCalls (.op .markFailed)

theorem verify_step {r : Receiver} {active : ActiveTransfer} {w : World}
    (h : r.transfer.active = some active) :
    SessionStep S r.options w r.transfer.active (r.verify active w).1.transfer.active
      (r.verify active w).2 := by
  have hcalls := (checkReceived_calls r.options active.init.totalSize.toNat active.session
    w).mono (Set.empty_subset (insert active.session.manifest.tempPath S))
  rw [h, verify]
  rcases hresult : checkReceived r.options active.init.totalSize.toNat active.session w
    with ⟨e | _, s, w'⟩
  · rw [hresult] at hcalls
    exact .called hcalls
  · rw [hresult] at hcalls
    exact .called hcalls

theorem rename_step {r : Receiver} {active : ActiveTransfer} {w : World}
    (h : r.transfer.active = some active) (houtput : r.options.path ∈ S) :
    SessionStep S r.options w r.transfer.active (r.rename active w).1.transfer.active
      (r.rename active w).2 := by
  have hcalls := (publish_calls transferSessionFormat r.options.toCommitOptions active.session
    w).mono (Set.insert_subset_insert (Set.singleton_subset_iff.mpr houtput))
  rw [h, rename]
  rcases hresult : publish transferSessionFormat r.options.toCommitOptions active.session w
    with ⟨e | _, s, w'⟩
  · rw [hresult] at hcalls
    exact .called hcalls
  · rw [hresult] at hcalls
    exact .called hcalls

theorem finishedWithMissing_step {r : Receiver} {active : ActiveTransfer} {w : World}
    (h : r.transfer.active = some active) :
    SessionStep S r.options w r.transfer.active (r.finishedWithMissing active w).1.transfer.active
      (r.finishedWithMissing active w).2 := by
  rw [h]
  exact .called (.op .markFailed)

theorem sendStatusToConnections_frame (connections : Nat) (w : World) :
    World.Frame ∅ w (sendStatusToConnections connections w).2 := by
  induction connections generalizing w with
  | zero => exact World.Frame.refl w
  | succ connections ih =>
      have hsend := sendFrame_frame w
      rw [sendStatusToConnections]
      rcases h : sendFrame w with ⟨e | _, w₁⟩
      · rw [h] at hsend
        exact hsend.trans (ih w₁)
      · rw [h] at hsend
        exact hsend.trans (ih w₁)

theorem complete_step (r : Receiver) (w : World) :
    SessionStep S r.options w r.transfer.active (r.complete w).1.transfer.active
      (r.complete w).2 :=
  (SessionStep.refl r.options _ w).andFrame (sendStatusToConnections_frame r.connections.length w)

theorem processCompletedHeader_active {options : FileTransferOptions}
    {connection connection' : FileServerConnection} {transfer transfer' : TransferState}
    {encoded : EncodedFrameHeader}
    (h : processCompletedHeader options connection transfer encoded = .ok (connection', transfer')) :
    transfer'.active = transfer.active := by
  have hstream : ∀ {header : FrameHeader} {c : FileServerConnection} {t : TransferState},
      validateStream connection transfer header.streamId.toNat options.connections = .ok (c, t) →
      t.active = transfer.active := by
    intro header c t hvalid
    rw [validateStream] at hvalid
    split at hvalid
    · simp only [bind_eq_ok] at hvalid
      obtain ⟨_, -, _, -, heq⟩ := hvalid
      rw [← (Prod.mk.inj (Except.ok.inj heq)).2]
    · simp only [bind_eq_ok] at hvalid
      obtain ⟨_, -, _, -, heq⟩ := hvalid
      rw [← (Prod.mk.inj (Except.ok.inj heq)).2]
  simp only [processCompletedHeader, bind_eq_ok] at h
  obtain ⟨header, -, _, -, _, -, ⟨c, t⟩, hvalid, h⟩ := h
  rw [← hstream hvalid]
  split at h
  · rw [← (Prod.mk.inj (Except.ok.inj h)).2]
  · simp only [bind_eq_ok] at h
    obtain ⟨_, -, h⟩ := h
    split at h
    · simp only [bind_eq_ok] at h
      obtain ⟨_, -, h⟩ := h
      rw [← (Prod.mk.inj (Except.ok.inj h)).2]
    · rw [← (Prod.mk.inj (Except.ok.inj h)).2]

/-- While frames come in, only the files of the session change. -/
theorem receive_session (r : Receiver) (event : Event) (w : World) :
    SessionStep S r.options w r.transfer.active (r.receive event w).1.transfer.active
      (r.receive event w).2 := by
  rw [receive.eq_def]
  cases event with
  | accepted =>
      simp only
      split
      · exact .refl r.options _ w
      · exact .refl r.options _ w
  | header index encoded =>
      simp only
      cases r.connections[index]? with
      | none => exact .refl r.options _ w
      | some connection =>
          simp only
          split
          · cases h : processCompletedHeader r.options connection r.transfer encoded with
            | error e => exact abort_step (.refl r.options _ w)
            | ok result =>
                obtain ⟨connection', transfer'⟩ := result
                simp only [processCompletedHeader_active h]
                exact .refl r.options _ w
          · exact .refl r.options _ w
  | payload index bytes =>
      simp only
      cases r.connections[index]? with
      | none => exact .refl r.options _ w
      | some connection =>
          simp only
          split
          · have hstep := processCompletedPayload_step (S := S) r.options index connection
              r.transfer bytes w
            rcases h : processCompletedPayload r.options index connection r.transfer bytes w
              with ⟨e | _, connection', transfer', w'⟩
            · rw [h] at hstep
              exact @abort_step S _ _ { r with transfer := transfer' } e _ _ hstep
            · rw [h] at hstep
              exact hstep
          · exact .refl r.options _ w
  | lost status => exact abort_step (.refl r.options _ w)
  | proceed =>
      simp only
      cases hactive : r.transfer.active with
      | none =>
          simp only [hactive]
          exact .refl r.options _ w
      | some active =>
          simp only
          rw [← hactive]
          split
          · split
            · exact finishedWithMissing_step hactive
            · exact verify_step hactive
          · exact .refl r.options _ w

/-- **A step changes the session by its operations only**, and opens one at
most; besides the files of the session only the rename changes one. -/
theorem step_session_of (r : Receiver) {event : Event} (w : World)
    (hrename : r.phase = .verified → event = .proceed → r.options.path ∈ S) :
    SessionStep S r.options w r.transfer.active (r.step event w).1.transfer.active
      (r.step event w).2 := by
  unfold step
  cases hphase : r.phase with
  | receiving => exact r.receive_session event w
  | verified =>
      cases event with
      | proceed =>
          cases hactive : r.transfer.active with
          | none =>
              simp only [hactive]
              exact .refl r.options _ w
          | some active =>
              simp only
              rw [← hactive]
              exact rename_step hactive (hrename hphase rfl)
      | accepted => exact .refl r.options _ w
      | header index encoded => exact .refl r.options _ w
      | payload index bytes => exact .refl r.options _ w
      | lost status => exact .refl r.options _ w
  | committed =>
      cases event with
      | proceed =>
          exact r.complete_step w
      | accepted => exact .refl r.options _ w
      | header index encoded => exact .refl r.options _ w
      | payload index bytes => exact .refl r.options _ w
      | lost status => exact .refl r.options _ w
  | returned status => exact .refl r.options _ w

theorem step_session (r : Receiver) (event : Event) (w : World) :
    SessionStep {r.options.path} r.options w r.transfer.active
      (r.step event w).1.transfer.active (r.step event w).2 :=
  r.step_session_of w fun _ _ => rfl

end Receiver

end

/-! ### Invariants -/

/-- The session of a receiver is sound, and its SessionInit has passed the
tests. -/
structure ActiveTransfer.Sound (options : FileTransferOptions) (active : ActiveTransfer) :
    Prop where
  checked : checkSessionInit options active.init = .ok ()
  valid : TransferSession.validateSessionInputs (sessionRequest options active.init) = .ok ()
  session : ∃ hardware, active.session.Sound transferSessionFormat hardware
    (sessionRequest options active.init)

namespace ActiveTransfer.Sound

variable {options : FileTransferOptions} {active : ActiveTransfer}

theorem tempPath (h : active.Sound options) : active.session.manifest.tempPath =
    tempPathForOutput options.path active.init.transferId := by
  obtain ⟨hardware, hs⟩ := h.session
  exact hs.opened.tempPath

theorem manifestPath (h : active.Sound options) :
    active.session.manifestPath = manifestPathForOutput options.path := by
  obtain ⟨hardware, hs⟩ := h.session
  exact hs.opened.manifestPath

end ActiveTransfer.Sound

theorem openSession_opens {options : FileTransferOptions} {init : SessionInitPayload}
    {s : TransferSession} {w w' : World} (h : openSession options init w = (.ok s, w')) :
    TransferSession.Opens w.crc32cHardwareAvailable (sessionRequest options init) s := by
  rw [openSession] at h
  by_cases hmode : init.mode = .resume
  · simp only [if_pos hmode] at h
    rcases hopen : TransferSession.resume (sessionRequest options init) w with ⟨e | s₁, w₁⟩
    · simp [hopen] at h
    · simp only [hopen, Prod.mk.injEq, Except.ok.injEq] at h
      obtain ⟨rfl, rfl⟩ := h
      exact ⟨w, w₁, rfl, Or.inr hopen⟩
  · simp only [if_neg hmode] at h
    rcases hopen : TransferSession.createNew (sessionRequest options init) w with ⟨e | s₁, w₁⟩
    · simp [hopen] at h
    · simp only [hopen, Prod.mk.injEq, Except.ok.injEq] at h
      obtain ⟨rfl, rfl⟩ := h
      exact ⟨w, w₁, rfl, Or.inl hopen⟩

theorem SessionStep.sound {S : Set Path} {options : FileTransferOptions} {w w' : World}
    {before after : Option ActiveTransfer} (h : SessionStep S options w before after w')
    (hbefore : ∀ active, before = some active → active.Sound options) :
    ∀ active, after = some active → active.Sound options := by
  intro active hactive
  cases h with
  | idle h => cases hactive
  | opened hinit hopens h =>
      obtain rfl := Option.some.inj hactive
      have hopened := openSession_opens hopens
      exact ⟨hinit, hopened.valid, _, h.sound hopened.sound.1⟩
  | called h =>
      obtain rfl := Option.some.inj hactive
      obtain ⟨hchecked, hvalid, hardware, hsound⟩ := hbefore _ rfl
      exact ⟨hchecked, hvalid, hardware, h.sound hsound⟩

theorem ActiveTransfer.Sound.serializable {options : FileTransferOptions}
    {active : ActiveTransfer} (h : active.Sound options) :
    active.session.Serializable transferSessionFormat := by
  obtain ⟨hardware, hsound⟩ := h.session
  exact TransferSession.serializable_of_valid h.valid hsound

/-- What holds of a receiver in every run. -/
structure Receiver.Invariant (options : FileTransferOptions) (r : Receiver) : Prop where
  sameOptions : r.options = options
  sound : ∀ active, r.transfer.active = some active → active.Sound options
  connected : r.transfer.active ≠ none → r.connections ≠ []

namespace Receiver

theorem abort_connections (r : Receiver) (e : TransferError) (w : World) :
    (r.abort e w).1.options = r.options ∧ (r.abort e w).1.connections = r.connections ∧
      (r.transfer.active = none → (r.abort e w).1.transfer.active = none) := by
  rw [abort]
  cases hactive : r.transfer.active with
  | none => exact ⟨rfl, rfl, fun _ => hactive⟩
  | some active => exact ⟨rfl, rfl, fun h => by cases h⟩

theorem verify_connections (r : Receiver) (active : ActiveTransfer) (w : World) :
    (r.verify active w).1.options = r.options ∧
      (r.verify active w).1.connections = r.connections := by
  rw [verify]
  rcases checkReceived r.options active.init.totalSize.toNat active.session w with ⟨e | _, s, w'⟩
  · exact ⟨rfl, rfl⟩
  · exact ⟨rfl, rfl⟩

theorem rename_connections (r : Receiver) (active : ActiveTransfer) (w : World) :
    (r.rename active w).1.options = r.options ∧
      (r.rename active w).1.connections = r.connections := by
  rw [rename]
  rcases publish transferSessionFormat r.options.toCommitOptions active.session w
    with ⟨e | _, s, w'⟩
  · exact ⟨rfl, rfl⟩
  · exact ⟨rfl, rfl⟩

/-- What a step does to the rest of the receiver: the options and the
connections stay, and without a connection no session is opened. -/
structure KeepsConnections (r r' : Receiver) : Prop where
  options : r'.options = r.options
  length : r.connections.length ≤ r'.connections.length
  unopened : r.connections = [] → r.transfer.active = none → r'.transfer.active = none

theorem KeepsConnections.of_eq {r r' : Receiver}
    (h : r'.options = r.options ∧ r'.connections = r.connections)
    (hactive : r.connections = [] → r.transfer.active = none → r'.transfer.active = none) :
    r.KeepsConnections r' :=
  ⟨h.1, h.2 ▸ le_rfl, hactive⟩

theorem KeepsConnections.refl (r : Receiver) : r.KeepsConnections r :=
  .of_eq ⟨rfl, rfl⟩ fun _ h => h

theorem receive_keepsConnections (r : Receiver) (event : Event) (w : World) :
    r.KeepsConnections (r.receive event w).1 := by
  have habort : ∀ (e : TransferError) (w : World), r.KeepsConnections (r.abort e w).1 :=
    fun e w => by
      obtain ⟨hoptions, hconnections, hactive⟩ := r.abort_connections e w
      exact .of_eq ⟨hoptions, hconnections⟩ fun _ => hactive
  -- a connection that is there
  have hindex : ∀ {index : Nat} {connection : FileServerConnection},
      r.connections[index]? = some connection → r.connections ≠ [] := by
    intro index connection hget hnil
    rw [hnil] at hget
    cases hget
  rw [receive.eq_def]
  cases event with
  | accepted =>
      simp only
      split
      · exact ⟨rfl, by simp, fun _ h => h⟩
      · exact .refl r
  | header index encoded =>
      simp only
      cases hget : r.connections[index]? with
      | none => exact .refl r
      | some connection =>
          simp only
          split
          · cases processCompletedHeader r.options connection r.transfer encoded with
            | error e => exact habort e w
            | ok result =>
                exact ⟨rfl, by simp, fun hnil => absurd hnil (hindex hget)⟩
          · exact .refl r
  | payload index bytes =>
      simp only
      cases hget : r.connections[index]? with
      | none => exact .refl r
      | some connection =>
          simp only
          split
          · rcases processCompletedPayload r.options index connection r.transfer bytes w
              with ⟨e | _, connection', transfer', w'⟩
            · obtain ⟨hoptions, hconnections, -⟩ :=
                { r with transfer := transfer' }.abort_connections e w'
              exact .of_eq ⟨hoptions, hconnections⟩ fun hnil => absurd hnil (hindex hget)
            · exact ⟨rfl, by simp, fun hnil => absurd hnil (hindex hget)⟩
          · exact .refl r
  | lost status => exact habort _ w
  | proceed =>
      simp only
      cases hactive : r.transfer.active with
      | none => exact .refl r
      | some active =>
          have hopen : ¬r.transfer.active = none := fun h => by
            rw [hactive] at h
            cases h
          simp only
          split
          · split
            · exact .of_eq ⟨rfl, rfl⟩ fun _ h => absurd h hopen
            · exact .of_eq (r.verify_connections active w) fun _ h => absurd h hopen
          · exact .refl r

theorem step_keepsConnections (r : Receiver) (event : Event) (w : World) :
    r.KeepsConnections (r.step event w).1 := by
  unfold step
  cases r.phase with
  | receiving => exact r.receive_keepsConnections event w
  | verified =>
      cases event with
      | proceed =>
          cases hactive : r.transfer.active with
          | none => exact .refl r
          | some active =>
              refine .of_eq (r.rename_connections active w) fun _ h => ?_
              rw [hactive] at h
              cases h
      | accepted => exact .refl r
      | header index encoded => exact .refl r
      | payload index bytes => exact .refl r
      | lost status => exact .refl r
  | committed =>
      cases event with
      | proceed => exact .of_eq ⟨rfl, rfl⟩ fun _ h => h
      | accepted => exact .refl r
      | header index encoded => exact .refl r
      | payload index bytes => exact .refl r
      | lost status => exact .refl r
  | returned status => exact .refl r

theorem validateServerOutputState_frame (options : FileTransferOptions) (w : World) :
    World.Frame ∅ w (validateServerOutputState options w).2 := by
  have hout := w.pathExists_frame options.path
  rw [validateServerOutputState]
  rcases h : w.pathExists options.path with ⟨e | outputExists, w₁⟩
  · rw [h] at hout
    exact hout
  · rw [h] at hout
    simp only
    split
    · exact hout
    · have hmanifest := w₁.pathExists_frame (manifestPathForOutput options.path)
      rcases h' : w₁.pathExists (manifestPathForOutput options.path) with ⟨e | manifestExists, w₂⟩
      · rw [h'] at hmanifest
        exact hout.trans hmanifest
      · rw [h'] at hmanifest
        simp only
        split
        · exact hout.trans hmanifest
        · split
          · exact hout.trans hmanifest
          · exact hout.trans hmanifest

/-- A receiver starts with nothing, and leaves the files alone. -/
theorem start_ok {options : FileTransferOptions} {r : Receiver} {w w' : World}
    (h : start options w = (.ok r, w')) :
    r = ⟨options, .receiving, [], ⟨none, 0, List.replicate options.connections false, []⟩⟩ ∧
      World.Frame ∅ w w' := by
  have hframe := validateServerOutputState_frame options w
  rw [start] at h
  rcases hvalid : validateServerOutputState options w with ⟨e | _, w₁⟩
  · simp [hvalid] at h
  · rw [hvalid] at hframe
    cases hio : validateFileIoConfig options.fileIo with
    | error e => simp [hvalid, hio] at h
    | ok _ =>
        simp only [hvalid, hio, Prod.mk.injEq, Except.ok.injEq] at h
        obtain ⟨rfl, rfl⟩ := h
        exact ⟨rfl, hframe⟩

/-- A receiver that has just started. -/
theorem Invariant.start {options : FileTransferOptions} {r : Receiver} {w w' : World}
    (h : Receiver.start options w = (.ok r, w')) : r.Invariant options := by
  obtain ⟨rfl, -⟩ := start_ok h
  exact ⟨rfl, fun active hactive => (by cases hactive), fun hactive => absurd rfl hactive⟩

theorem Invariant.step {options : FileTransferOptions} {r : Receiver}
    (h : r.Invariant options) (event : Event) (w : World) :
    (r.step event w).1.Invariant options := by
  obtain ⟨hoptions, hlength, hnone⟩ := r.step_keepsConnections event w
  have hsession := r.step_session event w
  rw [h.sameOptions] at hsession
  refine ⟨hoptions.trans h.sameOptions, hsession.sound h.sound, fun hactive hnil => ?_⟩
  rw [hnil, List.length_nil, Nat.le_zero, List.length_eq_zero_iff] at hlength
  by_cases hbefore : r.transfer.active = none
  · exact hactive (hnone hlength hbefore)
  · exact h.connected hbefore hlength

end Receiver

end FileTransferServer

end GridFlux
