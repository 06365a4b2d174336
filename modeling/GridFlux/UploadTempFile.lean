/-
GridFlux/UploadTempFile.lean

The temp file of an upload while frames come in.

An event of the receiver ends in one of a few ways (`ReceiveEnds`), and a payload
that is taken in is a SESSION_INIT, a DATA or a CHUNK_COMPLETE (`PayloadTaken`).
Through all of them the temp file holds what has been recorded and what the
connections have gathered of their chunks (`TempOk`).
-/
import GridFlux.UploadRecords

namespace GridFlux

open HalfOpen TextCodec Transition SharedFile

namespace FileTransferServer

/-! ### How an event ends -/

/-- No COMPLETE frame has been sent since. -/
def TransferState.NoComplete (t t' : TransferState) : Prop :=
  ∀ f ∈ t'.sent, f.header.type = .complete → f ∈ t.sent

theorem TransferState.NoComplete.refl (t : TransferState) : t.NoComplete t := fun _ hf _ => hf

theorem TransferState.NoComplete.append {t t' : TransferState} {frames : List SentFrame}
    (h : t.NoComplete t') (hframes : ∀ f ∈ frames, f.header.type ≠ .complete) :
    t.NoComplete { t' with sent := t'.sent ++ frames } := by
  intro f hf htype
  rcases List.mem_append.mp hf with hf | hf
  · exact h f hf htype
  · exact absurd htype (hframes f hf)

theorem resumeResponse_type {options : FileTransferOptions} {c : FileServerConnection}
    {active : ActiveTransfer} {frame : FrameHeader × Bytes}
    (h : resumeResponse options c active = .ok frame) : frame.1.type = .resumeResponse := by
  simp only [resumeResponse, bind_eq_ok] at h
  obtain ⟨payload, -, _, -, heq⟩ := h
  rw [← Except.ok.inj heq]

theorem processCompletedPayload_noComplete (options : FileTransferOptions) (index : Nat)
    (c : FileServerConnection) (t : TransferState) (bytes : Bytes) (w : World) :
    t.NoComplete (processCompletedPayload options index c t bytes w).2.2.1 := by
  rw [processCompletedPayload]
  split
  · rw [processSessionInitPayload]
    cases decodeSessionInitPayload bytes with
    | error e => exact .refl t
    | ok init =>
        rcases h : initializeSession options init t.active w with ⟨e | _, _ | active, w₁⟩
        · simp only [h]
          exact .refl t
        · simp only [h]
          exact .refl t
        · simp only [h]
          exact .refl t
        · simp only [h]
          cases hresponse : resumeResponse options { c with sessionReady := true } active with
          | error e => exact .refl t
          | ok frame =>
              rcases hsend : sendFrame w₁ with ⟨e | _, w₂⟩
              · exact .refl t
              · refine @TransferState.NoComplete.append t { t with active := some active } _
                  (fun _ hf _ => hf) fun f hf => ?_
                rw [List.mem_singleton.mp hf]
                show frame.1.type ≠ _
                rw [resumeResponse_type hresponse]
                decide
  · cases t.active with
    | none => exact .refl t
    | some active =>
        simp only
        split
        · rcases processChunkCompletePayload c active bytes w with ⟨e | c', s, w₁⟩
          · exact .refl t
          · exact .refl t
        · rcases processDataPayload c active bytes w with ⟨e | c', w₁⟩
          · exact .refl t
          · exact .refl t

namespace Receiver

/-- A payload is taken by a connection that waits for it. -/
theorem takes_ok {r : Receiver} {event : Event} {i : Nat} {c : FileServerConnection}
    {bytes : Bytes} (h : r.takes event = some (i, c, bytes)) :
    event = .payload i bytes ∧ r.connections[i]? = some c ∧ c.readState = .payload ∧
      bytes.length = c.currentHeader.payloadSize.toNat := by
  cases event with
  | payload index bytes' =>
      rw [takes] at h
      cases hc : r.connections[index]? with
      | none => simp [hc] at h
      | some c' =>
          simp only [hc] at h
          split at h
          · rename_i hstate
            simp only [Option.some.injEq, Prod.mk.injEq] at h
            obtain ⟨rfl, rfl, rfl⟩ := h
            exact ⟨rfl, hc, hstate⟩
          · cases h
  | accepted => cases h
  | header index encoded => cases h
  | lost status => cases h
  | proceed => cases h

/-- A receiver that does not take frames any more does not come back to it. -/
theorem receiving_of_step (r : Receiver) {event : Event} {w : World}
    (h : (r.step event w).1.phase = .receiving) : r.phase = .receiving := by
  unfold step at h
  cases hphase : r.phase with
  | receiving => rfl
  | verified =>
      simp only [hphase] at h
      split at h
      · rename_i active hactive
        rw [rename] at h
        rcases hresult : publish transferSessionFormat r.options.toCommitOptions active.session w
          with ⟨e | _, s, w'⟩
        · simp only [hresult] at h
          cases h
        · simp only [hresult] at h
          cases h
      · rw [hphase] at h
        cases h
  | committed =>
      simp only [hphase] at h
      split at h
      · rw [complete] at h
        cases h
      · rw [hphase] at h
        cases h
  | returned status =>
      simp only [hphase] at h
      cases h

/-- How an event ends that is taken while frames come in. -/
inductive ReceiveEnds (r : Receiver) (event : Event) (w : World) : Receiver × World → Prop
  | kept (htakes : r.takes event = none) : ReceiveEnds r event w (r, w)
  | accepted (hevent : event = .accepted) (hlt : r.connections.length < r.options.connections) :
      ReceiveEnds r event w ({ r with connections := r.connections ++ [.new r.options] }, w)
  | header {i : Nat} {encoded : EncodedFrameHeader} {c c' : FileServerConnection}
      {t : TransferState} (hevent : event = .header i encoded)
      (hc : r.connections[i]? = some c) (hstate : c.readState = .header)
      (hresult : processCompletedHeader r.options c r.transfer encoded = .ok (c', t)) :
      ReceiveEnds r event w
        ({ r with connections := r.connections.set i c', transfer := t }, w)
  | payload {i : Nat} {bytes : Bytes} {c c' : FileServerConnection} {t : TransferState}
      {w' : World} (htakes : r.takes event = some (i, c, bytes))
      (hc : r.connections[i]? = some c) (hstate : c.readState = .payload)
      (hlength : bytes.length = c.currentHeader.payloadSize.toNat)
      (hresult : processCompletedPayload r.options i c r.transfer bytes w = (.ok (), c', t, w')) :
      ReceiveEnds r event w
        ({ r with connections := r.connections.set i c', transfer := t }, w')
  | verified {active : ActiveTransfer} {s : TransferSession} {w' : World}
      (hevent : event = .proceed) (hactive : r.transfer.active = some active)
      (hcomplete : r.transfer.finConnections = r.options.connections)
      (hcheck : checkReceived r.options active.init.totalSize.toNat active.session w =
        (.ok (), s, w')) :
      ReceiveEnds r event w ({ r with
        phase := .verified
        transfer := { r.transfer with active := some { active with session := s } } }, w')
  | returned {r' : Receiver} {w' : World} {e : Status}
      (hphase : r'.phase = .returned (.error e)) (hsent : r.transfer.NoComplete r'.transfer) :
      ReceiveEnds r event w (r', w')

theorem finish_noComplete {t : TransferState} {r : Receiver} (h : t.NoComplete r.transfer)
    (e : TransferError) : t.NoComplete (r.finish e).transfer := by
  rw [finish]
  cases e.reply with
  | none => exact h
  | some reply =>
      refine h.append fun f hf => ?_
      obtain ⟨index, -, rfl⟩ := List.mem_map.mp hf
      intro htype
      cases htype

theorem abort_returned (r : Receiver) (e : TransferError) (w : World) :
    (r.abort e w).1.phase = .returned (.error e.status) ∧
      r.transfer.NoComplete (r.abort e w).1.transfer := by
  rw [abort]
  cases r.transfer.active with
  | none => exact ⟨rfl, finish_noComplete (.refl _) e⟩
  | some active =>
      refine ⟨rfl, ?_⟩
      exact finish_noComplete (r := { r with transfer := { r.transfer with
        active := some { active with session :=
          (active.session.markFailed transferSessionFormat w).2.1 } } }) (fun _ hf _ => hf) e

theorem receive_ends (r : Receiver) (event : Event) (w : World) :
    ReceiveEnds r event w (r.receive event w) := by
  have habort : ∀ (e : TransferError) (w' : World), ReceiveEnds r event w (r.abort e w') :=
    fun e w' => .returned (r.abort_returned e w').1 (r.abort_returned e w').2
  rw [receive.eq_def]
  cases event with
  | accepted =>
      simp only
      split
      · rename_i hlt
        exact .accepted rfl hlt
      · exact .kept rfl
  | header index encoded =>
      simp only
      cases hc : r.connections[index]? with
      | none => exact .kept rfl
      | some c =>
          simp only
          split
          · rename_i hstate
            cases hheader : processCompletedHeader r.options c r.transfer encoded with
            | error e => exact habort e w
            | ok result => exact .header rfl hc hstate hheader
          · exact .kept rfl
  | payload index bytes =>
      simp only
      cases hc : r.connections[index]? with
      | none =>
          refine .kept ?_
          simp only [takes, hc]
      | some c =>
          simp only
          split
          · rename_i hstate
            have hsent := processCompletedPayload_noComplete r.options index c r.transfer bytes w
            rcases hpayload : processCompletedPayload r.options index c r.transfer bytes w
              with ⟨e | _, c', transfer', w'⟩
            · rw [hpayload] at hsent
              obtain ⟨hphase, hsent'⟩ :=
                ({ r with transfer := transfer' } : Receiver).abort_returned e w'
              exact .returned hphase fun f hf htype => hsent f (hsent' f hf htype) htype
            · refine .payload ?_ hc hstate.1 hstate.2 hpayload
              simp only [takes, hc, if_pos hstate]
          · rename_i hstate
            refine .kept ?_
            simp only [takes, hc, if_neg hstate]
  | lost status => exact habort _ w
  | proceed =>
      simp only
      cases hactive : r.transfer.active with
      | none => exact .kept rfl
      | some active =>
          simp only
          split
          · rename_i hcomplete
            simp only [transferComplete, decide_eq_true_eq] at hcomplete
            split
            · exact .returned rfl (finish_noComplete (fun _ hf _ => hf) _)
            · rw [verify]
              rcases hresult : checkReceived r.options active.init.totalSize.toNat active.session w
                with ⟨e | _, s, w'⟩
              · exact .returned rfl (finish_noComplete (fun _ hf _ => hf) _)
              · exact .verified rfl hactive hcomplete.2 hresult
          · exact .kept rfl

end Receiver

/-! ### Payloads that are taken in -/

/-- How a payload is taken in. -/
inductive PayloadTaken (options : FileTransferOptions) (c : FileServerConnection)
    (t : TransferState) (bytes : Bytes) (w : World) :
    FileServerConnection → TransferState → World → Prop
  | sessionInit {t' : TransferState} {init : SessionInitPayload} {active : ActiveTransfer}
      {w₁ w' : World} (htype : c.currentHeader.type = .sessionInit)
      (hinit : initializeSession options init t.active w = (.ok (), some active, w₁))
      (hframe : World.Frame ∅ w₁ w') (hactive : t'.active = some active) :
      PayloadTaken options c t bytes w { c with sessionReady := true, readState := .header } t' w'
  | data {active : ActiveTransfer} {b : FileServerConnection} {w' : World}
      (htype : c.currentHeader.type = .data) (hactive : t.active = some active)
      (hb : b = beginChunk c active w.crc32cHardwareAvailable)
      (hnext : b.activeChunkNextOffset = b.currentHeader.offset.toNat)
      (hrun : w.runWrites active.session.manifest.tempPath
        (b.writer.write b.currentHeader.offset.toNat bytes).1 = (.ok (), w')) :
      PayloadTaken options c t bytes w (b.afterData w.crc32cHardwareAvailable bytes) t w'
  | chunkComplete {active : ActiveTransfer} {payload : ChunkCompletePayload}
      {s : TransferSession} {w₁ w' : World} (htype : c.currentHeader.type = .chunkComplete)
      (hactive : t.active = some active)
      (hcheck : checkChunkComplete c active bytes = .ok payload)
      (hrun : w.runWrites active.session.manifest.tempPath c.writer.flush.1 = (.ok (), w₁))
      (hchecksum : c.checksumComputer.finalize = payload.checksum)
      (hrecord : active.session.recordVerifiedChunk transferSessionFormat payload.chunkId.toNat
        payload.offset.toNat payload.length.toNat payload.checksum w₁ = (.ok (), s, w')) :
      PayloadTaken options c t bytes w
        { c with writer := c.writer.flush.2, chunkActive := false, readState := .header }
        { t with active := some { active with session := s } } w'

theorem processSessionInitPayload_taken {options : FileTransferOptions} {index : Nat}
    {c c' : FileServerConnection} {t t' : TransferState} {bytes : Bytes} {w w' : World}
    (htype : c.currentHeader.type = .sessionInit)
    (h : processSessionInitPayload options index c t bytes w = (.ok (), c', t', w')) :
    PayloadTaken options c t bytes w c' t' w' := by
  rw [processSessionInitPayload] at h
  cases hdecode : decodeSessionInitPayload bytes with
  | error e => simp [hdecode] at h
  | ok init =>
      simp only [hdecode] at h
      rcases hinit : initializeSession options init t.active w with ⟨e | _, _ | active, w₁⟩
      · simp [hinit] at h
      · simp [hinit] at h
      · exact absurd rfl (initializeSession_active hinit)
      · simp only [hinit] at h
        cases hresponse : resumeResponse options { c with sessionReady := true } active with
        | error e => simp [hresponse] at h
        | ok frame =>
            simp only [hresponse] at h
            have hframe := sendFrame_frame w₁
            rcases hsend : sendFrame w₁ with ⟨e | _, w₂⟩
            · simp [hsend] at h
            · rw [hsend] at hframe
              simp only [hsend, Prod.mk.injEq, true_and] at h
              obtain ⟨rfl, rfl, rfl⟩ := h
              exact .sessionInit htype hinit hframe rfl

theorem processCompletedPayload_taken {options : FileTransferOptions} {index : Nat}
    {c c' : FileServerConnection} {t t' : TransferState} {bytes : Bytes} {w w' : World}
    (h : processCompletedPayload options index c t bytes w = (.ok (), c', t', w'))
    (hok : c.Ok options t) (hreading : c.readState = .payload) :
    PayloadTaken options c t bytes w c' t' w' := by
  rw [processCompletedPayload] at h
  split at h
  · rename_i htype
    exact processSessionInitPayload_taken htype h
  · rename_i hnotInit
    obtain ⟨htypes, hready, -⟩ := hok.readingChunk hreading hnotInit
    cases hactive : t.active with
    | none => exact absurd hactive (hok.ready hready).2
    | some active =>
        simp only [hactive] at h
        split at h
        · rename_i htype
          have hends := processChunkCompletePayload_ends c active bytes w
          generalize processChunkCompletePayload c active bytes w = result at h hends
          rcases result with ⟨e | c₁, s, w₁⟩
          · simp at h
          · simp only [Prod.mk.injEq, true_and] at h
            obtain ⟨rfl, rfl, rfl⟩ := h
            cases hends with
            | recorded hcheck hrun hchecksum hrecord hresult =>
                rcases hresult with ⟨_, _, _, h⟩ | ⟨rfl, h⟩
                · cases h
                · obtain rfl := Except.ok.inj h
                  exact .chunkComplete htype hactive hcheck hrun hchecksum hrecord
        · rename_i hnotComplete
          have hends := processDataPayload_ends c active bytes w
          generalize processDataPayload c active bytes w = result at h hends
          rcases result with ⟨e | c₁, w₁⟩
          · simp at h
          · simp only [Prod.mk.injEq, true_and] at h
            obtain ⟨rfl, rfl, rfl⟩ := h
            cases hends with
            | written hb hnext hrun hresult =>
                rcases hresult with ⟨_, _, _, h⟩ | ⟨rfl, h⟩
                · cases h
                · obtain rfl := Except.ok.inj h
                  exact .data (htypes.resolve_right hnotComplete) hactive hb hnext hrun

/-! ### Opening the temp file -/

/-- An opened temp file is there. -/
theorem openOutputForSession_ok {options : FileTransferOptions} {tempPath : Path}
    {totalSize : Nat} {w w' : World} {u : Unit}
    (h : openOutputForSession options tempPath totalSize w = (.ok u, w')) :
    (w'.files tempPath).isSome = true := by
  -- advice changes no file
  have hadvice : ∀ {w₁ : World}, w₁.applyFileIoAdvice options.fileIo.advice totalSize =
      (.ok u, w') → (w₁.files tempPath).isSome = true → (w'.files tempPath).isSome = true := by
    intro w₁ hresult hsome
    have hframe := w₁.applyFileIoAdvice_frame options.fileIo.advice totalSize
    rw [hresult] at hframe
    rw [hframe.files _ (Set.notMem_empty _)]
    exact hsome
  rw [openOutputForSession] at h
  split at h
  · rcases hopen : w.openReadWrite tempPath with ⟨e | _, w₁⟩
    · simp [hopen] at h
    · simp only [hopen] at h
      exact hadvice h (World.openExisting_ok hopen)
  · rcases hopen : w.openReadWriteExclusive tempPath with ⟨e | _, w₁⟩
    · simp [hopen] at h
    · simp only [hopen] at h
      have hallocated : ((if totalSize > 0 ∧ options.preallocateMode = .full
          then w₁.preallocate tempPath totalSize else (.ok (), w₁)).2.files tempPath).isSome =
            true := by
        split
        · exact World.preallocate_isSome (World.openReadWriteExclusive_ok hopen) _
        · exact World.openReadWriteExclusive_ok hopen
      rcases halloc : (if totalSize > 0 ∧ options.preallocateMode = .full
          then w₁.preallocate tempPath totalSize else (.ok (), w₁)) with ⟨e | _, w₂⟩
      · simp [halloc] at h
      · rw [halloc] at hallocated
        simp only [halloc] at h
        have hresized := World.resize_isSome hallocated totalSize
        rcases hresize : w₂.resize tempPath totalSize with ⟨e | _, w₃⟩
        · simp [hresize] at h
        · rw [hresize] at hresized
          simp only [hresize] at h
          exact hadvice h hresized

/-- A session that keeps to its own files leaves the temp file alone. -/
theorem ActiveTransfer.Sound.temp_kept {options : FileTransferOptions} {active : ActiveTransfer}
    (hsound : active.Sound options) {s' : TransferSession} {w w' : World}
    (hcalls : Session.Calls transferSessionFormat ∅ active.session w s' w') :
    w'.files active.session.manifest.tempPath = w.files active.session.manifest.tempPath := by
  have hapart := transfer_filesApart w options.path active.init.transferId
  apply hcalls.frame.files
  rw [Set.empty_union, Session.diskFiles, hsound.manifestPath, hsound.tempPath]
  rintro (h | h)
  · exact hapart.temp_manifest h
  · exact hapart.temp_manifestTemp h

/-- **Once a session is prepared, its records are intact.** -/
theorem prepareSession_intact {options : FileTransferOptions} {init : SessionInitPayload}
    {s₀ s : TransferSession} {w w' : World} (hsound : ActiveTransfer.Sound options ⟨init, s₀⟩)
    (hcrc : init.checksumAlgorithm = .crc32c) (hfresh : init.mode ≠ .resume → s₀.records = [])
    (h : prepareSession options init s₀ w = (.ok (), s, w')) :
    ∃ content, w'.files s₀.manifest.tempPath = some content ∧
      ∀ record ∈ s.records, record.Intact content := by
  obtain ⟨hardware, hs⟩ := hsound.session
  have halgorithm : s₀.manifest.checksumAlgorithm = .crc32c :=
    hs.opened.checksumAlgorithm.trans hcrc
  have hcalls := (prepareSession_afterOpening options init s₀ w).calls
  rw [h] at hcalls
  rw [prepareSession] at h
  rcases hopen : openOutputForSession options s₀.manifest.tempPath init.totalSize.toNat w
    with ⟨e | _, w₁⟩
  · simp [hopen] at h
  · rw [hopen] at hcalls
    simp only [hopen] at h
    obtain ⟨content, hcontent⟩ := Option.isSome_iff_exists.mp (openOutputForSession_ok hopen)
    have hintact : ∀ record ∈ (if init.mode = .resume then
        s₀.verifyTempChunks transferSessionFormat s₀.manifest.tempPath w₁
        else (.ok (), s₀, w₁)).2.1.records, record.Intact content := by
      split
      · refine hs.ok.verifyTempChunks_intact halgorithm (fun r hr => ?_) hcontent
        exact (hs.storable.algorithms r hr).trans halgorithm
      · rename_i hmode
        show ∀ record ∈ s₀.records, _
        rw [hfresh hmode]
        exact fun _ hr => (List.not_mem_nil hr).elim
    rcases hresult : (if init.mode = .resume then
        s₀.verifyTempChunks transferSessionFormat s₀.manifest.tempPath w₁
        else (.ok (), s₀, w₁)) with ⟨e | _, s₂, w₂⟩
    · simp [hresult] at h
    · rw [hresult] at hintact
      simp only [hresult] at h
      have hperm := s₂.save_records_perm transferSessionFormat w₂
      rcases hsaved : s₂.save transferSessionFormat w₂ with ⟨e | _, s₃, w₃⟩
      · simp [hsaved] at h
      · rw [hsaved] at hperm
        simp only [hsaved, Prod.mk.injEq, true_and] at h
        obtain ⟨rfl, rfl⟩ := h
        refine ⟨content, (hsound.temp_kept hcalls).trans hcontent, fun r hr => ?_⟩
        exact hintact r (hperm.mem_iff.mp hr)

/-! ### Chunks being received -/

/-- The chunk a connection is in. -/
def FileServerConnection.chunkState (c : FileServerConnection) : Option ChunkState :=
  if c.chunkActive then
    some ⟨c.activeChunkOffset, c.activeChunkNextOffset, c.checksumComputer, c.writer, []⟩
  else none

/-- The chunks the connections are in. -/
def Receiver.chunks (r : Receiver) (i : Nat) : Option ChunkState :=
  r.connections[i]?.bind FileServerConnection.chunkState

theorem Receiver.chunks_eq {r : Receiver} {i : Nat} {c : FileServerConnection}
    (hc : r.connections[i]? = some c) : r.chunks i = c.chunkState := by
  rw [chunks, hc]
  rfl

theorem Receiver.chunks_set {r : Receiver} {i : Nat} {c : FileServerConnection}
    (hc : r.connections[i]? = some c) (c' : FileServerConnection) (t : TransferState) :
    ({ r with connections := r.connections.set i c', transfer := t } : Receiver).chunks =
      Function.update r.chunks i c'.chunkState := by
  obtain ⟨hlt, -⟩ := List.getElem?_eq_some_iff.mp hc
  funext j
  show (r.connections.set i c')[j]?.bind _ = _
  by_cases hij : j = i
  · subst hij
    rw [List.getElem?_set_self hlt, Function.update_self]
    rfl
  · rw [List.getElem?_set_ne (fun hji => hij hji.symm), Function.update_of_ne hij]
    rfl

theorem Receiver.chunks_setSame {r : Receiver} {i : Nat} {c c' : FileServerConnection}
    (hc : r.connections[i]? = some c) (hsame : c'.chunkState = c.chunkState) (t : TransferState) :
    ({ r with connections := r.connections.set i c', transfer := t } : Receiver).chunks =
      r.chunks := by
  rw [chunks_set hc, hsame, ← chunks_eq hc, Function.update_eq_self]

theorem Receiver.chunks_accept (r : Receiver) :
    ({ r with connections := r.connections ++ [.new r.options] } : Receiver).chunks =
      r.chunks := by
  funext j
  show (r.connections ++ [_])[j]?.bind _ = r.connections[j]?.bind _
  rw [List.getElem?_append]
  split
  · rfl
  · rename_i hge
    rw [List.getElem?_eq_none (Nat.le_of_not_lt hge)]
    cases hget : [FileServerConnection.new r.options][j - r.connections.length]? with
    | none => rfl
    | some c =>
        -- a new connection is in no chunk
        rw [List.mem_singleton.mp (List.mem_of_getElem? hget)]
        rfl

/-- A header changes neither the chunk of its connection nor what has been
sent. -/
theorem processCompletedHeader_kept {options : FileTransferOptions}
    {c c' : FileServerConnection} {t t' : TransferState} {encoded : EncodedFrameHeader}
    (h : processCompletedHeader options c t encoded = .ok (c', t')) :
    c'.chunkState = c.chunkState ∧ t'.sent = t.sent := by
  obtain ⟨header, c₁, t₁, -, -, -, hstream, htaken⟩ := processCompletedHeader_ok h
  have hfirst : c₁.chunkState = c.chunkState ∧ t₁.sent = t.sent := by
    cases hstream with
    | first _ _ => exact ⟨rfl, rfl⟩
    | again _ => exact ⟨rfl, rfl⟩
  cases htaken with
  | sessionInit _ => exact hfirst
  | fin _ _ _ => exact hfirst
  | chunk _ _ => exact hfirst

/-- What holds of the temp file while frames come in. -/
def TempOk (contents : Set (Segment UInt8)) (gathered : Nat → Bytes) (r : Receiver) (w : World) :
    Prop :=
  ∀ active, r.transfer.active = some active → ∃ content,
    w.files active.session.manifest.tempPath = some content ∧
    FileOk contents active.session.records r.chunks gathered active.init.totalSize.toNat content

section Taking

variable {contents : Set (Segment UInt8)} {records : List ChunkChecksumRecord}
  {chunks : Nat → Option ChunkState} {gathered : Nat → Bytes} {totalSize i : Nat}
  {content : Bytes} {options : FileTransferOptions} {t : TransferState}
  {c : FileServerConnection} {active : ActiveTransfer} {bytes : Bytes} {w w' : World}

/-- The bytes of a DATA frame go on from what the connection has gathered. -/
theorem FileServerConnection.Ok.gathers_data (hok : c.Ok options t)
    (hcrc : active.init.checksumAlgorithm = .crc32c)
    (h : FileOk contents records chunks gathered totalSize content)
    (hchunk : chunks i = c.chunkState) {hardware : Bool} {b : FileServerConnection}
    (hb : b = beginChunk c active hardware) (bytes : Bytes) :
    ∃ written, Gathers ⟨b.activeChunkOffset, b.activeChunkNextOffset + bytes.length,
        b.checksumComputer.update hardware bytes,
        (b.writer.write b.activeChunkNextOffset bytes).2,
        (b.writer.write b.activeChunkNextOffset bytes).1⟩
        (if c.chunkActive then gathered i ++ bytes else bytes) written ∧
      Covered (transferSegments contents records chunks gathered)
        (Set.Ico b.activeChunkOffset written) content := by
  cases hactive : c.chunkActive with
  | true =>
      rw [FileServerConnection.chunkState, if_pos hactive] at hchunk
      rw [beginChunk, if_pos hactive] at hb
      subst hb
      obtain ⟨written, hgathers, hcovered, -⟩ := h.receiving i _ hchunk
      exact ⟨written, hgathers.afterData rfl hardware bytes, hcovered⟩
  | false =>
      rw [beginChunk, if_neg (by rw [hactive]; exact Bool.false_ne_true)] at hb
      subst hb
      have hbegun := (Gathers.begin c.currentHeader.offset.toNat hardware
        active.session.checksumBackend (hok.idle hactive)).afterData rfl hardware bytes
      rw [List.nil_append] at hbegun
      refine ⟨c.currentHeader.offset.toNat, ?_, fun x hx => absurd hx.1 (Nat.not_le.mpr hx.2)⟩
      rw [← hcrc] at hbegun
      exact hbegun

/-- **A DATA frame that is taken in.** -/
theorem FileServerConnection.Ok.fileOk_data (hok : c.Ok options t)
    (hcrc : active.init.checksumAlgorithm = .crc32c)
    (h : FileOk contents records chunks gathered totalSize content)
    (hchunk : chunks i = c.chunkState) {b : FileServerConnection}
    (hb : b = beginChunk c active w.crc32cHardwareAvailable)
    (hnext : b.activeChunkNextOffset = b.currentHeader.offset.toNat)
    (hlength : bytes.length = c.currentHeader.payloadSize.toNat)
    (hinside : c.currentHeader.offset.toNat + bytes.length ≤ totalSize) {path : Path}
    (hfile : w.files path = some content)
    (hrun : w.runWrites path (b.writer.write b.currentHeader.offset.toNat bytes).1 =
      (.ok (), w')) :
    ∃ content', w'.files path = some content' ∧
      FileOk contents records
        (Function.update chunks i (b.afterData w.crc32cHardwareAvailable bytes).chunkState)
        (Function.update gathered i (if c.chunkActive then gathered i ++ bytes else bytes))
        totalSize content' := by
  obtain ⟨written, hgathers, hcovered⟩ := hok.gathers_data hcrc h hchunk hb bytes
  have hheader := beginChunk_header c active w.crc32cHardwareAvailable
  obtain ⟨hactive, -⟩ := beginChunk_same c active w.crc32cHardwareAvailable
  rw [← hb] at hheader hactive
  have hold : ∀ old, chunks i = some old → b.activeChunkOffset = old.offset ∧
      ∃ more, (if c.chunkActive then gathered i ++ bytes else bytes) = gathered i ++ more := by
    intro old hget
    rw [hchunk, FileServerConnection.chunkState] at hget
    split at hget
    · rename_i hwas
      rw [beginChunk, if_pos hwas] at hb
      rw [if_pos hwas, hb, ← Option.some.inj hget]
      exact ⟨rfl, bytes, rfl⟩
    · cases hget
  rw [← hnext] at hrun
  obtain ⟨content', hfile', -, hok'⟩ := h.makeWrites hold hgathers hcovered (by
    show b.activeChunkNextOffset + bytes.length ≤ totalSize
    rw [hnext, hheader]
    exact hinside) hfile hrun
  refine ⟨content', hfile', ?_⟩
  have hafter : (b.afterData w.crc32cHardwareAvailable bytes).chunkState =
      some ⟨b.activeChunkOffset, b.activeChunkNextOffset + bytes.length,
        b.checksumComputer.update w.crc32cHardwareAvailable bytes,
        (b.writer.write b.activeChunkNextOffset bytes).2, []⟩ := by
    rw [FileServerConnection.chunkState, if_pos (show (b.afterData _ bytes).chunkActive = true from
      hactive), FileServerConnection.afterData, hlength, ← hheader, ← hnext]
  rw [hafter]
  exact hok'

/-- **A CHUNK_COMPLETE that is taken in.** -/
theorem fileOk_chunkComplete {payload : ChunkCompletePayload} {s : TransferSession} {w₁ : World}
    {contents' : Set (Segment UInt8)}
    (h : FileOk contents active.session.records chunks gathered totalSize content)
    (hchunk : chunks i = c.chunkState) (hcheck : checkChunkComplete c active bytes = .ok payload)
    (hfile : w.files active.session.manifest.tempPath = some content)
    (hrun : w.runWrites active.session.manifest.tempPath c.writer.flush.1 = (.ok (), w₁))
    (hchecksum : c.checksumComputer.finalize = payload.checksum)
    (hrecord : active.session.recordVerifiedChunk transferSessionFormat payload.chunkId.toNat
      payload.offset.toNat payload.length.toNat payload.checksum w₁ = (.ok (), s, w'))
    (hcontents : contents ⊆ contents') (hmem : ⟨c.activeChunkOffset, gathered i⟩ ∈ contents') :
    ∃ content', w₁.files active.session.manifest.tempPath = some content' ∧
      FileOk contents' s.records (Function.update chunks i none) gathered totalSize content' := by
  have hchecked := checkChunkComplete_ok hcheck
  rw [FileServerConnection.chunkState, if_pos hchecked.active'] at hchunk
  obtain ⟨written, hgathers, hcovered, hnext⟩ := h.receiving i _ hchunk
  -- what the writer still holds is written
  obtain ⟨content', hfile', -, hflushed⟩ := h.makeWrites (fun old hold => by
    obtain rfl := Option.some.inj (hchunk.symm.trans hold)
    exact ⟨rfl, [], (List.append_nil _).symm⟩) (hgathers.flush rfl) hcovered hnext hfile hrun
  rw [Function.update_eq_self] at hflushed
  refine ⟨content', hfile', ?_⟩
  -- and the chunk is recorded
  have hrecorded := active.session.recordVerifiedChunk_recorded transferSessionFormat
    payload.chunkId.toNat payload.offset.toNat payload.length.toNat payload.checksum w₁
  rw [hrecord] at hrecorded
  have has : RecordedAs (recordOf payload) ⟨c.activeChunkOffset, gathered i⟩ := by
    refine ⟨hchecked.offset.symm, ?_, hgathers.finalize.symm.trans hchecksum⟩
    have hend : c.activeChunkNextOffset = c.activeChunkOffset + (gathered i).length :=
      hgathers.next_eq
    show (gathered i).length = payload.length.toNat
    rw [hchecked.length, hend, Nat.add_sub_cancel_left]
  have hnew : ∀ r ∈ s.records, r ∈ active.session.records ∨
      RecordedAs r ⟨c.activeChunkOffset, gathered i⟩ := by
    intro r hr
    rcases hrecorded.new r hr with hold | rfl
    · exact Or.inl hold
    · exact Or.inr has
  have hdone := hflushed.record (Function.update_self ..) rfl rfl hcontents hmem hrecorded.kept
    hnew ⟨_, hrecorded.done rfl, has⟩
  rw [Function.update_idem] at hdone
  exact hdone

end Taking

/-! ### The temp file during a run -/

theorem TempOk.mono {contents contents' : Set (Segment UInt8)} {gathered : Nat → Bytes}
    {r : Receiver} {w : World} (h : TempOk contents gathered r w)
    (hcontents : contents ⊆ contents') : TempOk contents' gathered r w := by
  intro active hactive
  obtain ⟨content, hfile, hok⟩ := h active hactive
  exact ⟨content, hfile, hok.contents_mono hcontents⟩

/-- Without a session, no connection is in a chunk. -/
theorem Receiver.ConnectionsOk.chunks_none {r : Receiver} (h : r.ConnectionsOk)
    (hnone : r.transfer.active = none) (i : Nat) : r.chunks i = none := by
  rw [Receiver.chunks]
  cases hc : r.connections[i]? with
  | none => rfl
  | some c =>
      refine if_neg fun hactive => ?_
      have hok := h.ok i c hc
      exact (hok.ready (hok.chunk hactive)).2 hnone

/-- A session that has just been opened. -/
theorem tempOk_opened {run : UploadRun} {r : Receiver} {init : SessionInitPayload}
    {s₀ s : TransferSession} {w₀ w₁ w' : World} {r' : Receiver}
    (hcrc : r.options.checksumAlgorithm = .crc32c)
    (hcheck : checkSessionInit r.options init = .ok ())
    (hopens : openSession r.options init run.world = (.ok s₀, w₀))
    (hprepare : prepareSession r.options init s₀ w₀ = (.ok (), s, w₁))
    (hframe : World.Frame ∅ w₁ w') (hactive : r'.transfer.active = some ⟨init, s⟩)
    (hbefore : r.transfer.active = none) (hnone : ∀ i, r'.chunks i = none)
    {contents : Set (Segment UInt8)} (hcontents : UploadRun.foundChunks r r' w' ⊆ contents)
    (gathered : Nat → Bytes) : TempOk contents gathered r' w' := by
  have hsound := openSession_sound hcheck hopens
  obtain ⟨hmode, halgorithm⟩ := checkSessionInit_ok hcheck
  have halgorithm' := halgorithm.trans hcrc
  have hfresh : init.mode ≠ .resume → s₀.records = [] := fun hne =>
    ((openSession_records halgorithm' hopens).resolve_right fun h => hne h.1).2
  obtain ⟨content, hfile, hintact⟩ := prepareSession_intact hsound halgorithm' hfresh hprepare
  have hcalls := prepareSession_calls r.options init s₀ w₀
  rw [hprepare] at hcalls
  have htemp : s.manifest.tempPath = s₀.manifest.tempPath := hcalls.tempPath
  have hfile' : w'.files s.manifest.tempPath = some content := by
    rw [htemp, hframe.files _ (Set.notMem_empty _)]
    exact hfile
  intro active hget
  obtain rfl := Option.some.inj (hactive.symm.trans hget)
  refine ⟨content, hfile', .of_covered (covered_of_intact hintact fun record hrecord => ?_) _ _
    hnone⟩
  exact hcontents ⟨hbefore, _, content, hactive, hfile', record, hrecord, rfl⟩

/-- **A payload that is taken in** leaves the temp file in order. -/
theorem PayloadTaken.tempOk {run : UploadRun} {r : Receiver} {event : Event} {i : Nat}
    {c c' : FileServerConnection} {t' : TransferState} {bytes : Bytes} {w' : World}
    (htaken : PayloadTaken r.options c r.transfer bytes run.world c' t' w')
    (hsound : ∀ active, r.transfer.active = some active → active.Sound r.options)
    (hconnections : r.ConnectionsOk) (hcrc : r.options.checksumAlgorithm = .crc32c)
    (h : TempOk run.contents run.gathered r run.world)
    (htakes : r.takes event = some (i, c, bytes)) (hc : r.connections[i]? = some c)
    (hstate : c.readState = .payload) (hlength : bytes.length = c.currentHeader.payloadSize.toNat) :
    TempOk (run.contents ∪ run.endedChunk r event ∪
        UploadRun.foundChunks r { r with connections := r.connections.set i c', transfer := t' } w')
      (run.gather r event) { r with connections := r.connections.set i c', transfer := t' } w' := by
  have hok := hconnections.ok i c hc
  have hchunk := Receiver.chunks_eq hc
  have hgather : run.gather r event = if c.currentHeader.type = .data then
      Function.update run.gathered i (run.gatheredWith i c bytes) else run.gathered := by
    rw [UploadRun.gather, htakes]
  rw [hgather]
  cases htaken with
  | @sessionInit t' init active w₁ w' htype hinit hframe hactive =>
      rw [if_neg (by rw [htype]; decide)]
      have hchunks := Receiver.chunks_setSame hc
        (show ({ c with sessionReady := true, readState := .header } :
          FileServerConnection).chunkState = c.chunkState from rfl) t'
      have hends := initializeSession_ends r.options init r.transfer.active run.world
      rw [hinit] at hends
      generalize hbefore : r.transfer.active = before at hends
      cases hends with
      | again _ =>
          intro active' hactive'
          obtain rfl := Option.some.inj (hactive.symm.trans hactive')
          obtain ⟨content, hfile, hfileOk⟩ := h active hbefore
          refine ⟨content, (hframe.files _ (Set.notMem_empty _)).trans hfile, ?_⟩
          rw [hchunks]
          exact hfileOk.contents_mono fun seg hseg => Or.inl (Or.inl hseg)
      | opened hcheck hopens hprepare =>
          refine tempOk_opened hcrc hcheck hopens hprepare hframe hactive hbefore (fun j => ?_)
            (fun seg hseg => Or.inr hseg) _
          rw [hchunks]
          exact hconnections.chunks_none hbefore j
  | @data active b w' htype hactive hb hnext hrun =>
      rw [if_pos htype]
      have hcrc' := (checkSessionInit_ok (hsound active hactive).checked).2.trans hcrc
      obtain ⟨content, hfile, hfileOk⟩ := h active hactive
      have hvalid := (hok.reading hstate).2
      obtain ⟨-, -, htotal⟩ := hok.readingChunk hstate (by rw [htype]; decide)
      have hinside : c.currentHeader.offset.toNat + bytes.length ≤ active.init.totalSize.toNat := by
        rw [hlength, ← htotal active hactive]
        exact validateFrameHeader_data hvalid htype
      obtain ⟨content', hfile', hfileOk'⟩ := hok.fileOk_data hcrc' hfileOk hchunk hb hnext hlength
        hinside hfile hrun
      intro active' hactive'
      obtain rfl := Option.some.inj (hactive.symm.trans hactive')
      refine ⟨content', hfile', ?_⟩
      rw [Receiver.chunks_set hc]
      exact hfileOk'.contents_mono fun seg hseg => Or.inl (Or.inl hseg)
  | @chunkComplete active payload s w₁ w' htype hactive hcheck hrun hchecksum hrecord =>
      rw [if_neg (by rw [htype]; decide)]
      obtain ⟨content, hfile, hfileOk⟩ := h active hactive
      have hended : (⟨c.activeChunkOffset, run.gathered i⟩ : Segment UInt8) ∈
          run.contents ∪ run.endedChunk r event :=
        Or.inr ⟨i, c, bytes, htakes, htype, (checkChunkComplete_ok hcheck).active', rfl⟩
      obtain ⟨content', hfile', hfileOk'⟩ := fileOk_chunkComplete hfileOk hchunk hcheck hfile hrun
        hchecksum hrecord Set.subset_union_left hended
      -- the record goes into the manifest, not into the temp file
      have hop : SessionOp.run transferSessionFormat (.recordVerifiedChunk payload.chunkId
          payload.offset payload.length payload.checksum) active.session w₁ = (.ok (), s, w') :=
        hrecord
      have hcalls := @Session.Calls.op _ transferSessionFormat ∅ active.session w₁
        (.recordVerifiedChunk payload.chunkId payload.offset payload.length payload.checksum)
      rw [hop] at hcalls
      have hkept := (hsound active hactive).temp_kept hcalls
      have htemp : s.manifest.tempPath = active.session.manifest.tempPath := hcalls.tempPath
      intro active' hactive'
      obtain rfl := Option.some.inj hactive'
      refine ⟨content', ?_, ?_⟩
      · show w'.files s.manifest.tempPath = _
        rw [htemp, hkept]
        exact hfile'
      · rw [Receiver.chunks_set hc]
        exact hfileOk'.contents_mono fun seg hseg => Or.inl hseg

/-- **While frames come in**, the connections and the temp file stay in order. -/
theorem TempOk.step {run : UploadRun} {r : Receiver} {event : Event}
    (h : TempOk run.contents run.gathered r run.world) (hconnections : r.ConnectionsOk)
    (hsound : ∀ active, r.transfer.active = some active → active.Sound r.options)
    (hcrc : r.options.checksumAlgorithm = .crc32c) (hphase : r.phase = .receiving)
    (hphase' : (r.step event run.world).1.phase = .receiving) :
    (r.step event run.world).1.ConnectionsOk ∧
      TempOk (run.receive r event).contents (run.gather r event) (r.step event run.world).1
        (r.step event run.world).2 := by
  have hstep : r.step event run.world = r.receive event run.world := by
    unfold Receiver.step
    rw [hphase]
  have hends := r.receive_ends event run.world
  have hgather : r.takes event = none → run.gather r event = run.gathered := by
    intro htakes
    rw [UploadRun.gather, htakes]
  rw [show (run.receive r event).contents = run.contents ∪ run.endedChunk r event ∪
    UploadRun.foundChunks r (r.step event run.world).1 (r.step event run.world).2 from rfl]
  rw [hstep] at hphase' ⊢
  generalize r.receive event run.world = result at hends hphase' ⊢
  obtain ⟨r', w'⟩ := result
  have hmono : TempOk (run.contents ∪ run.endedChunk r event ∪ UploadRun.foundChunks r r' w')
      run.gathered r run.world := h.mono fun seg hseg => Or.inl (Or.inl hseg)
  cases hends with
  | kept htakes =>
      rw [hgather htakes]
      exact ⟨hconnections, hmono⟩
  | accepted hevent hlt =>
      subst hevent
      refine ⟨hconnections.accept hlt, fun active hactive => ?_⟩
      rw [Receiver.chunks_accept]
      exact hmono active hactive
  | header hevent hc hstate hresult =>
      subst hevent
      have hactive := Receiver.processCompletedHeader_active hresult
      refine ⟨hconnections.header hc hstate hresult, fun active hget => ?_⟩
      rw [Receiver.chunks_setSame hc (processCompletedHeader_kept hresult).1]
      exact hmono active (hactive.symm.trans hget)
  | @payload i bytes c c' t w' htakes hc hstate hlength hresult =>
      have htaken := processCompletedPayload_taken hresult (hconnections.ok i c hc) hstate
      obtain ⟨hgrows, hcount, hok, hstream, hid, hfin⟩ :=
        processCompletedPayload_connection hresult (hconnections.ok i c hc) hstate
      exact ⟨hconnections.setSame hc hgrows hok hstream hid hfin hcount,
        htaken.tempOk hsound hconnections hcrc h htakes hc hstate hlength⟩
  | verified hevent hactive hcomplete hcheck => cases hphase'
  | returned hreturned hsent =>
      rw [hreturned] at hphase'
      cases hphase'

/-- What the contents of a run become. -/
theorem UploadRun.subset_receive (run : UploadRun) (r : Receiver) (event : Event) :
    run.contents ⊆ (run.receive r event).contents := fun _ h => Or.inl (Or.inl h)

end FileTransferServer

end GridFlux
