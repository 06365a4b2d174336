/-
GridFlux/UploadTempSize.lean

How long the temp file of an upload can get.

A new temp file is given the size of the transfer, and every write stays inside
the chunk it belongs to, whether it succeeds or not.  So a temp file that is no
longer than the transfer stays so, whatever the clients send and whatever fails
(`Receiver.step_fits`).
-/
import GridFlux.UploadTempFile

namespace GridFlux

open HalfOpen TextCodec Transition SharedFile

/-- The file, if it is there, has at most `size` bytes. -/
def World.Fits (w : World) (path : Path) (size : Nat) : Prop :=
  ∀ content, w.files path = some content → content.length ≤ size

namespace World.Fits

variable {w w' : World} {path : Path} {size : Nat}

theorem congr (h : w.Fits path size) (hfile : w'.files path = w.files path) :
    w'.Fits path size := by
  intro content hcontent
  rw [hfile] at hcontent
  exact h content hcontent

theorem frame (h : w.Fits path size) {S : Set Path} (hframe : World.Frame S w w') (hS : path ∉ S) :
    w'.Fits path size :=
  h.congr (hframe.files _ hS)

theorem setFile {content : Bytes} (hle : content.length ≤ size) :
    (w.setFile path (some content)).Fits path size := by
  intro content' hcontent
  simp only [World.setFile, Function.update_self, Option.some.injEq] at hcontent
  rw [← hcontent]
  exact hle

end World.Fits

namespace FileTransferServer

/-! ### Opening -/

section Opening

variable {w : World} {path : Path} {size : Nat}

theorem preallocate_fits (h : w.Fits path size) {n : Nat} (hn : n ≤ size) :
    (w.preallocate path n).2.Fits path size := by
  rw [World.preallocate]
  split
  · exact h
  · split
    · exact h
    · cases w.nextOutcome with
      | failure e moved => exact h
      | success =>
          intro content hcontent
          simp only [World.setFile, Function.update_self, Option.map_eq_some_iff] at hcontent
          obtain ⟨old, hold, rfl⟩ := hcontent
          rw [World.length_resized]
          exact Nat.max_le.mpr ⟨hn, h old hold⟩

theorem resize_fits (h : w.Fits path size) {n : Nat} (hn : n ≤ size) :
    (w.resize path n).2.Fits path size := by
  rw [World.resize]
  split
  · exact h
  · cases w.nextOutcome with
    | failure e moved => exact h
    | success =>
        intro content hcontent
        simp only [World.setFile, Function.update_self, Option.map_eq_some_iff] at hcontent
        obtain ⟨old, hold, rfl⟩ := hcontent
        rw [World.length_resized]
        exact hn

theorem openReadWriteExclusive_fits (h : w.Fits path size) :
    (w.openReadWriteExclusive path).2.Fits path size := by
  rw [World.openReadWriteExclusive]
  cases w.nextOutcome with
  | failure e moved => exact h
  | success =>
      simp only
      split
      · exact h
      · exact World.Fits.setFile (Nat.zero_le _)

/-- Opening the temp file leaves it no longer than the transfer. -/
theorem openOutputForSession_fits (options : FileTransferOptions) {totalSize : Nat}
    (h : w.Fits path size) (hn : totalSize ≤ size) :
    (openOutputForSession options path totalSize w).2.Fits path size := by
  have hadvice : ∀ w₁ : World, w₁.Fits path size →
      (w₁.applyFileIoAdvice options.fileIo.advice totalSize).2.Fits path size := fun w₁ h₁ =>
    h₁.frame (w₁.applyFileIoAdvice_frame _ _) (Set.notMem_empty _)
  rw [openOutputForSession]
  split
  · have hopen := h.frame (World.openExisting_frame w (ascii "open read-write") path)
      (Set.notMem_empty _)
    rcases hresult : w.openReadWrite path with ⟨e | _, w₁⟩
    · rw [World.openReadWrite] at hresult
      rw [hresult] at hopen
      exact hopen
    · rw [World.openReadWrite] at hresult
      rw [hresult] at hopen
      exact hadvice w₁ hopen
  · have hopen := openReadWriteExclusive_fits h
    rcases hresult : w.openReadWriteExclusive path with ⟨e | _, w₁⟩
    · rw [hresult] at hopen
      exact hopen
    · rw [hresult] at hopen
      have hallocate : (if totalSize > 0 ∧ options.preallocateMode = .full
          then w₁.preallocate path totalSize else (.ok (), w₁)).2.Fits path size := by
        split
        · exact preallocate_fits hopen hn
        · exact hopen
      rcases hresult' : (if totalSize > 0 ∧ options.preallocateMode = .full
          then w₁.preallocate path totalSize else (.ok (), w₁)) with ⟨e | _, w₂⟩
      · rw [hresult'] at hallocate
        simp only [hresult']
        exact hallocate
      · rw [hresult'] at hallocate
        have hresize := resize_fits hallocate hn
        simp only [hresult']
        rcases hresult'' : w₂.resize path totalSize with ⟨e | _, w₃⟩
        · rw [hresult''] at hresize
          exact hresize
        · rw [hresult''] at hresize
          exact hadvice w₃ hresize

end Opening

/-- The SESSION_INITs of the transfer that the temp file belongs to. -/
structure Uses (options : FileTransferOptions) (init : SessionInitPayload) (path : Path)
    (size : Nat) : Prop where
  temp : tempPathForOutput options.path init.transferId = path
  total : init.totalSize.toNat = size

section Handlers

variable {options : FileTransferOptions} {w : World} {path : Path} {size : Nat}

/-- Calls of a session leave the temp file as long as it is. -/
theorem ActiveTransfer.Sound.fits_of_calls {active : ActiveTransfer} (hsound : active.Sound options)
    (huses : Uses options active.init path size) {s' : TransferSession} {w' : World}
    (hcalls : Session.Calls transferSessionFormat ∅ active.session w s' w')
    (hfits : w.Fits path size) : w'.Fits path size := by
  have htemp : active.session.manifest.tempPath = path := hsound.tempPath.trans huses.temp
  rw [← htemp] at hfits ⊢
  exact hfits.congr (hsound.temp_kept hcalls)

theorem InitEnds.fits {init : SessionInitPayload} {before : Option ActiveTransfer}
    {r : Except TransferError Unit × Option ActiveTransfer × World}
    (h : InitEnds options init w before r) (huses : Uses options init path size)
    (hfits : w.Fits path size) : r.2.2.Fits path size := by
  cases h with
  | refused e hframe => exact hfits.frame hframe (Set.notMem_empty _)
  | again active => exact hfits
  | @opened s₀ s w₀ w' result hcheck hopens hprepare =>
      have hsound := openSession_sound hcheck hopens
      have htemp : s₀.manifest.tempPath = path := hsound.tempPath.trans huses.temp
      have hfits₀ := hfits.frame (openSession_frame hopens) (Set.notMem_empty _)
      have hopen : (openOutputForSession options s₀.manifest.tempPath init.totalSize.toNat
          w₀).2.Fits path size := by
        rw [htemp]
        exact openOutputForSession_fits options hfits₀ huses.total.le
      have hcalls := prepareSession_afterOpening options init s₀ w₀
      rw [hprepare] at hcalls
      exact hsound.fits_of_calls huses hcalls.calls hopen

theorem World.Fits.rewritten {w' : World} {seg : Segment UInt8} {bound : Nat}
    {content content' : Bytes} (hfits : w.Fits path size) (hfile : w.files path = some content)
    (hfile' : w'.files path = some content') (h : Rewritten 0 {seg} bound content content')
    (hbound : bound ≤ size) : w'.Fits path size := by
  intro content'' hcontent
  obtain rfl := Option.some.inj (hfile'.symm.trans hcontent)
  exact h.length_le.trans (Nat.max_le.mpr ⟨hfits content hfile, hbound⟩)

section Payloads

variable {contents : Set (Segment UInt8)} {gathered : Nat → Bytes} {r : Receiver} {i : Nat}
  {c : FileServerConnection} {active : ActiveTransfer} {bytes : Bytes} {w' : World}

/-- A DATA frame, whether it is written or not. -/
theorem DataEnds.fits {result : Except TransferError FileServerConnection}
    (h : DataEnds c active bytes w (result, w')) (hok : c.Ok options r.transfer)
    (hcrc : active.init.checksumAlgorithm = .crc32c) (htemp : TempOk contents gathered r w)
    (hactive : r.transfer.active = some active) (hc : r.connections[i]? = some c)
    (hinside : c.currentHeader.offset.toNat + bytes.length ≤ size)
    (hpath : active.session.manifest.tempPath = path) (hfits : w.Fits path size) :
    w'.Fits path size := by
  cases h with
  | refused e => exact hfits
  | @written b status _ _ hb hnext hrun hresult =>
      obtain ⟨content, hfile, hfileOk⟩ := htemp active hactive
      rw [hpath] at hfile hrun
      obtain ⟨written, hgathers, -⟩ := hok.gathers_data hcrc hfileOk (Receiver.chunks_eq hc) hb bytes
      have hend := hgathers.next_eq
      obtain ⟨mid, hwrites, -⟩ := hgathers.afterWrites
      obtain ⟨content', hfile', hrewritten, -⟩ := World.runWrites_of_writes hfile hwrites
      have hheader := beginChunk_header c active w.crc32cHardwareAvailable
      rw [← hb] at hheader
      rw [hnext] at hfile' hend
      rw [hrun] at hfile'
      refine World.Fits.rewritten hfits hfile hfile' hrewritten ?_
      rw [Segment.end, ← hend, hheader]
      exact hinside

/-- A CHUNK_COMPLETE, which writes what the writer still holds. -/
theorem ChunkEnds.fits {s : TransferSession} {result : Except TransferError FileServerConnection}
    (h : ChunkEnds c active bytes w (result, s, w')) (hok : c.Ok options r.transfer)
    (hsound : active.Sound options) (huses : Uses options active.init path size)
    (htemp : TempOk contents gathered r w) (hactive : r.transfer.active = some active)
    (hc : r.connections[i]? = some c) (hfits : w.Fits path size) : w'.Fits path size := by
  have hpath : active.session.manifest.tempPath = path := hsound.tempPath.trans huses.temp
  have hflush : ∀ {status : Except Status Unit} {w₁ : World},
      w.runWrites active.session.manifest.tempPath c.writer.flush.1 = (status, w₁) →
        w₁.Fits path size := by
    intro status w₁ hrun
    rw [hpath] at hrun
    cases hin : c.chunkActive with
    | false =>
        -- a connection in no chunk holds nothing
        have hnothing : c.writer.flush.1 = [] := if_pos (hok.idle hin)
        rw [hnothing, World.runWrites] at hrun
        rw [← (Prod.mk.inj hrun).2]
        exact hfits
    | true =>
        obtain ⟨content, hfile, hfileOk⟩ := htemp active hactive
        have hchunk := Receiver.chunks_eq hc
        rw [FileServerConnection.chunkState, if_pos hin] at hchunk
        obtain ⟨written, hgathers, -, hnext⟩ := hfileOk.receiving i _ hchunk
        have hflushed := hgathers.flush rfl
        have hend := hflushed.next_eq
        obtain ⟨mid, hwrites, -⟩ := hflushed.afterWrites
        rw [hpath] at hfile
        obtain ⟨content', hfile', hrewritten, -⟩ := World.runWrites_of_writes hfile hwrites
        rw [hrun] at hfile'
        refine World.Fits.rewritten hfits hfile hfile' hrewritten ?_
        rw [Segment.end, ← hend, ← huses.total]
        exact hnext
  cases h with
  | refused e => exact hfits
  | flushed e hrun => exact hflush hrun
  | @recorded payload w₁ _ status _ _ hcheck hrun hchecksum hrecord hresult =>
      have hcalls := @Session.Calls.op _ transferSessionFormat ∅ active.session w₁
        (.recordVerifiedChunk payload.chunkId payload.offset payload.length payload.checksum)
      rw [show SessionOp.run transferSessionFormat (.recordVerifiedChunk payload.chunkId
        payload.offset payload.length payload.checksum) active.session w₁ = (status, s, w') from
        hrecord] at hcalls
      exact hsound.fits_of_calls huses hcalls (hflush hrun)

theorem processCompletedPayload_fits (hok : c.Ok r.options r.transfer)
    (hsound : ∀ a, r.transfer.active = some a → a.Sound r.options)
    (hcrc : r.options.checksumAlgorithm = .crc32c)
    (huses : ∀ a, r.transfer.active = some a → Uses r.options a.init path size)
    (hbrings : ∀ init, c.currentHeader.type = .sessionInit →
      decodeSessionInitPayload bytes = .ok init → Uses r.options init path size)
    (htemp : TempOk contents gathered r w) (hc : r.connections[i]? = some c)
    (hstate : c.readState = .payload) (hlength : bytes.length = c.currentHeader.payloadSize.toNat)
    (hfits : w.Fits path size) :
    (processCompletedPayload r.options i c r.transfer bytes w).2.2.2.Fits path size := by
  rw [processCompletedPayload]
  split
  · rename_i htype
    rw [processSessionInitPayload]
    cases hdecode : decodeSessionInitPayload bytes with
    | error e => exact hfits
    | ok init =>
        have hinit := (initializeSession_ends r.options init r.transfer.active w).fits
          (hbrings init htype hdecode) hfits
        rcases h : initializeSession r.options init r.transfer.active w with ⟨e | _, _ | active, w₁⟩
        · rw [h] at hinit
          simp only [h]
          exact hinit
        · rw [h] at hinit
          simp only [h]
          exact hinit
        · rw [h] at hinit
          simp only [h]
          exact hinit
        · rw [h] at hinit
          simp only [h]
          cases resumeResponse r.options { c with sessionReady := true } active with
          | error e => exact hinit
          | ok frame =>
              have hsend := hinit.frame (sendFrame_frame w₁) (Set.notMem_empty _)
              rcases h' : sendFrame w₁ with ⟨e | _, w₂⟩
              · rw [h'] at hsend
                exact hsend
              · rw [h'] at hsend
                exact hsend
  · rename_i hnotInit
    obtain ⟨htypes, -, htotal⟩ := hok.readingChunk hstate hnotInit
    cases hactive : r.transfer.active with
    | none => exact hfits
    | some active =>
        have hsound' := hsound active hactive
        have huses' := huses active hactive
        simp only
        split
        · have hends := processChunkCompletePayload_ends c active bytes w
          generalize processChunkCompletePayload c active bytes w = result at hends ⊢
          rcases result with ⟨e | c', s, w₁⟩
          · exact hends.fits hok hsound' huses' htemp hactive hc hfits
          · exact hends.fits hok hsound' huses' htemp hactive hc hfits
        · rename_i hnotComplete
          have hends := processDataPayload_ends c active bytes w
          have hinside : c.currentHeader.offset.toNat + bytes.length ≤ size := by
            rw [hlength, ← huses'.total, ← htotal active hactive]
            exact validateFrameHeader_data (hok.reading hstate).2
              (htypes.resolve_right hnotComplete)
          have hcrc' := (checkSessionInit_ok hsound'.checked).2.trans hcrc
          have hpath := hsound'.tempPath.trans huses'.temp
          generalize processDataPayload c active bytes w = result at hends ⊢
          rcases result with ⟨e | c', w₁⟩
          · exact hends.fits hok hcrc' htemp hactive hc hinside hpath hfits
          · exact hends.fits hok hcrc' htemp hactive hc hinside hpath hfits

end Payloads

/-- The rename takes the temp file away. -/
theorem ActiveTransfer.Sound.publish_fits {active : ActiveTransfer} (hsound : active.Sound options)
    (huses : Uses options active.init path size) (hfits : w.Fits path size) :
    (publish transferSessionFormat options.toCommitOptions active.session w).2.2.Fits path size := by
  have hpath : active.session.manifest.tempPath = path := hsound.tempPath.trans huses.temp
  have hapart := transfer_filesApart w options.path active.init.transferId
  rw [publish]
  rcases hrename : w.renamePath active.session.manifest.tempPath options.toCommitOptions.path
    with ⟨e | _, w₁⟩
  · have hkept : w₁.Fits path size := hfits.congr (congrFun (World.renamePath_error hrename) path)
    exact hsound.fits_of_calls huses
      (active.session.fail_quiet transferSessionFormat _ _ w₁).calls hkept
  · obtain ⟨content, -, -, hgone⟩ := World.renamePath_ok hrename (by
      rw [hsound.tempPath]
      exact hapart.output_temp.symm)
    have hkept : w₁.Fits path size := by
      intro content' hcontent
      rw [← hpath, hgone] at hcontent
      cases hcontent
    exact hsound.fits_of_calls huses
      (sealOutput_calls transferSessionFormat options.toCommitOptions active.session w₁) hkept

namespace Receiver

variable {r : Receiver} {contents : Set (Segment UInt8)} {gathered : Nat → Bytes}

theorem abort_fits (hsound : ∀ a, r.transfer.active = some a → a.Sound options)
    (huses : ∀ a, r.transfer.active = some a → Uses options a.init path size)
    (hfits : w.Fits path size) (e : TransferError) : (r.abort e w).2.Fits path size := by
  rw [abort]
  cases hactive : r.transfer.active with
  | none => exact hfits
  | some active =>
      exact (hsound active hactive).fits_of_calls (huses active hactive) (.op .markFailed) hfits

/-- While frames come in. -/
theorem receive_fits (hinv : r.Invariant r.options) (hcrc : r.options.checksumAlgorithm = .crc32c)
    (huses : ∀ a, r.transfer.active = some a → Uses r.options a.init path size)
    (hconnections : r.ConnectionsOk) (htemp : TempOk contents gathered r w) {event : Event}
    (hbrings : r.Brings (Uses r.options · path size) event) (hfits : w.Fits path size) :
    (r.receive event w).2.Fits path size := by
  have habort := @abort_fits r.options w path size r hinv.sound huses hfits
  rw [receive.eq_def]
  cases event with
  | accepted =>
      simp only
      split
      · exact hfits
      · exact hfits
  | header index encoded =>
      simp only
      cases r.connections[index]? with
      | none => exact hfits
      | some c =>
          simp only
          split
          · cases processCompletedHeader r.options c r.transfer encoded with
            | error e => exact habort e
            | ok result => exact hfits
          · exact hfits
  | payload index bytes =>
      simp only
      cases hc : r.connections[index]? with
      | none => exact hfits
      | some c =>
          simp only
          split
          · rename_i hstate
            have htakes : r.takes (.payload index bytes) = some (index, c, bytes) := by
              simp only [takes, hc, if_pos hstate]
            have hpayload := processCompletedPayload_fits (hconnections.ok index c hc) hinv.sound
              hcrc huses (fun init => hbrings index c bytes init htakes) htemp hc hstate.1 hstate.2
              hfits
            have hsound := (processCompletedPayload_step (S := ∅) r.options index c r.transfer
              bytes w).sound hinv.sound
            have hinits := @processCompletedPayload_inits (Uses r.options · path size) r index c
              bytes w huses fun init => hbrings index c bytes init htakes
            rcases hresult : processCompletedPayload r.options index c r.transfer bytes w
              with ⟨e | _, c', t', w'⟩
            · rw [hresult] at hpayload hsound hinits
              exact @abort_fits r.options w' path size { r with transfer := t' } hsound hinits
                hpayload e
            · rw [hresult] at hpayload
              exact hpayload
          · exact hfits
  | lost status => exact habort _
  | proceed =>
      simp only
      cases hactive : r.transfer.active with
      | none => exact hfits
      | some active =>
          have hsound := hinv.sound active hactive
          have huses' := huses active hactive
          simp only
          split
          · split
            · exact hsound.fits_of_calls huses' (.op .markFailed) hfits
            · have hcalls := (checkReceived_quiet r.options active.init.totalSize.toNat
                active.session w).calls
              rw [verify]
              rcases hresult : checkReceived r.options active.init.totalSize.toNat active.session w
                with ⟨e | _, s, w'⟩
              · rw [hresult] at hcalls
                exact hsound.fits_of_calls huses' hcalls hfits
              · rw [hresult] at hcalls
                exact hsound.fits_of_calls huses' hcalls hfits
          · exact hfits

/-- **A step keeps the temp file inside the transfer**, up to the rename. -/
theorem step_fits (hinv : r.Invariant r.options) (hcrc : r.options.checksumAlgorithm = .crc32c)
    (huses : ∀ a, r.transfer.active = some a → Uses r.options a.init path size)
    (hreceiving : r.phase = .receiving → r.ConnectionsOk ∧ TempOk contents gathered r w)
    {event : Event}
    (hbrings : r.phase = .receiving → r.Brings (Uses r.options · path size) event)
    (hfits : w.Fits path size) : (r.step event w).2.Fits path size := by
  unfold step
  cases hphase : r.phase with
  | receiving =>
      obtain ⟨hconnections, htemp⟩ := hreceiving hphase
      exact receive_fits hinv hcrc huses hconnections htemp (hbrings hphase) hfits
  | verified =>
      cases event with
      | proceed =>
          cases hactive : r.transfer.active with
          | none => exact hfits
          | some active =>
              have hpublish := (hinv.sound active hactive).publish_fits (huses active hactive) hfits
              simp only
              rw [rename]
              rcases hresult : publish transferSessionFormat r.options.toCommitOptions
                active.session w with ⟨e | _, s, w'⟩
              · rw [hresult] at hpublish
                exact hpublish
              · rw [hresult] at hpublish
                exact hpublish
      | accepted => exact hfits
      | header index encoded => exact hfits
      | payload index bytes => exact hfits
      | lost status => exact hfits
  | committed =>
      cases event with
      | proceed =>
          have hframe := sendStatusToConnections_frame r.connections.length w
          exact hfits.frame hframe (Set.notMem_empty _)
      | accepted => exact hfits
      | header index encoded => exact hfits
      | payload index bytes => exact hfits
      | lost status => exact hfits
  | returned status => exact hfits

end Receiver

end Handlers

end FileTransferServer

end GridFlux
