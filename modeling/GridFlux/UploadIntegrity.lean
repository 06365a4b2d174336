/-
GridFlux/UploadIntegrity.lean

Uploads against arbitrary clients.

Whatever frames arrive, in whatever order, a receiver that comes to the rename
has a FIN of every connection, records that are exactly the chunks of the plan,
and in the temp file the bytes that were recorded; and no COMPLETE frame is sent
before `markCommitted` has succeeded (`upload_integrity`).  What is known in each
phase of the receiver is `ReceiverOk`: it holds when a receiver starts and is kept
by every event.
-/
import GridFlux.CommitCalls
import GridFlux.UploadTempFile

namespace GridFlux

open HalfOpen TextCodec Transition SharedFile

namespace FileTransferServer

/-! ### The commit -/

/-- After the last test nothing is missing. -/
theorem checkReceived_ok {options : FileTransferOptions} {totalSize : Nat}
    {s s' : TransferSession} {w w' : World}
    (h : checkReceived options totalSize s w = (.ok (), s', w')) : s'.missingRanges = [] := by
  rw [checkReceived] at h
  split at h
  · simp [Session.fail] at h
  · rename_i hmissing
    rcases hverify : finalVerify transferSessionFormat options.toCommitOptions
      (ascii "final verify found missing ranges") totalSize s w with ⟨e | _, s₁, w₁⟩
    · simp [hverify] at h
    · have hnil := finalVerify_missing (not_not.mp hmissing) hverify
      have hsave := @Session.save_missingRanges _ transferSessionFormat s₁ w₁
      simp only [hverify] at h
      rcases hresult : s₁.save transferSessionFormat w₁ with ⟨e | _, s₂, w₂⟩
      · simp [hresult, Session.fail] at h
      · rw [hresult] at hsave
        simp only [hresult] at h
        rcases hexists : w₂.pathExists options.path with ⟨e | outputExists, w₃⟩
        · simp [hexists, Session.fail] at h
        · simp only [hexists] at h
          split at h
          · simp [Session.fail] at h
          · obtain ⟨-, rfl, -⟩ := Prod.mk.inj h
            exact hsave.trans hnil

/-- **A commit that succeeds** has moved the temp file to the output, and the
manifest says so. -/
theorem ActiveTransfer.Sound.published {options : FileTransferOptions} {active : ActiveTransfer}
    (hsound : active.Sound options) {content : Bytes} {s' : TransferSession} {w w' : World}
    (hfile : w.files active.session.manifest.tempPath = some content)
    (h : publish transferSessionFormat options.toCommitOptions active.session w =
      (.ok (), s', w')) :
    Published parseTransferManifest options.path content s' w' := by
  obtain ⟨hardware, hs⟩ := hsound.session
  have hapart := transfer_filesApart w options.path active.init.transferId
  have htemp := hsound.tempPath
  rw [publish] at h
  rcases hrename : w.renamePath active.session.manifest.tempPath options.toCommitOptions.path
    with ⟨e | _, w₁⟩
  · simp [hrename, Session.fail] at h
  · simp only [hrename] at h
    have hpid := (w.renamePath_frame active.session.manifest.tempPath options.path).pid
    rw [show w.renamePath _ options.path = _ from hrename] at hpid
    obtain ⟨moved, hsource, htarget, -⟩ := World.renamePath_ok hrename (by
      rw [htemp]
      exact hapart.output_temp.symm)
    obtain rfl := Option.some.inj (hfile.symm.trans hsource)
    rw [sealOutput] at h
    have hsync := applyCommitSyncPolicy_frame w₁ options.toCommitOptions.path
      options.toCommitOptions.commitSyncPolicy
    rcases hresult : applyCommitSyncPolicy w₁ options.toCommitOptions.path
      options.toCommitOptions.commitSyncPolicy with ⟨e | _, w₂⟩
    · simp [hresult, Session.fail] at h
    · rw [hresult] at hsync
      simp only [hresult] at h
      have hstate := active.session.markCommitted_state transferSessionFormat w₂
      have hframe := SessionOp.run_frame transferSessionFormat .markCommitted active.session w₂
      rcases hcommit : active.session.markCommitted transferSessionFormat w₂ with ⟨e | _, s₃, w₃⟩
      · simp [hcommit] at h
      · rw [hcommit] at hstate
        rw [show SessionOp.run transferSessionFormat .markCommitted active.session w₂ = _ from
          hcommit] at hframe
        simp only [hcommit, Prod.mk.injEq, true_and] at h
        obtain ⟨rfl, rfl⟩ := h
        have hs' := @Session.Sound.change _ transferSessionFormat _ _ .markCommitted w₂ _ _ hs
          (.state .committed)
        obtain ⟨text, manifest, htext, hparse, rfl⟩ := hs'.save_stored transfer_readsBack hcommit
        refine ⟨?_, text, _, htext, hparse, hstate⟩
        rw [hframe.files _ ?_, hsync.files _ (Set.notMem_empty _)]
        · exact htarget
        · rw [Session.diskFiles, hsound.manifestPath, World.manifestTempPath, hsync.pid, hpid]
          rintro (h | h)
          · exact hapart.output_manifest h
          · exact hapart.output_manifestTemp h

/-! ### Whole runs -/

/-- Everything has been received: every connection has sent its FIN, nothing is
missing, and the records are in the temp file. -/
structure Complete (run : UploadRun) (r : Receiver) (active : ActiveTransfer) (content : Bytes) :
    Prop where
  connections : r.ConnectionsOk
  active' : r.transfer.active = some active
  fins : r.transfer.finConnections = r.options.connections
  missing : active.session.missingRanges = []
  file : run.world.files active.session.manifest.tempPath = some content
  stored : NoCollision run.contents → ∀ record ∈ active.session.records,
    record.offset + record.length ≤ content.length ∧ ∃ seg ∈ run.contents, RecordedAs record seg ∧
      World.slice content record.offset record.length = seg.data

theorem Complete.intact {run : UploadRun} {r : Receiver} {active : ActiveTransfer}
    {content : Bytes} (h : Complete run r active content) (hcollision : NoCollision run.contents) :
    ∀ record ∈ active.session.records, record.Intact content := by
  intro record hrecord
  obtain ⟨hle, seg, -, has, hslice⟩ := h.stored hcollision record hrecord
  exact ⟨hle, by rw [hslice, has.checksum]⟩

/-- What has been received is the output now, and the manifest says so. -/
structure Committed (run : UploadRun) (r : Receiver) (active : ActiveTransfer) (content : Bytes) :
    Prop where
  active' : r.transfer.active = some active
  marked : run.committed = true
  published : Published parseTransferManifest r.options.path content active.session run.world
  intact : NoCollision run.contents → ∀ record ∈ active.session.records, record.Intact content

theorem Complete.of_checkReceived {run : UploadRun} {r : Receiver} {event : Event}
    {active : ActiveTransfer} {s : TransferSession} {w' : World}
    (hsound : active.Sound r.options) (hconnections : r.ConnectionsOk)
    (h : TempOk run.contents run.gathered r run.world) (hactive : r.transfer.active = some active)
    (hfins : r.transfer.finConnections = r.options.connections)
    (hcheck : checkReceived r.options active.init.totalSize.toNat active.session run.world =
      (.ok (), s, w'))
    (hreceive : r.step event run.world = ({ r with
      phase := .verified
      transfer := { r.transfer with active := some { active with session := s } } }, w')) :
    ∃ content, Complete (run.receive r event) (r.step event run.world).1
      { active with session := s } content := by
  obtain ⟨hardware, hs⟩ := hsound.session
  obtain ⟨content, hfile, hfileOk⟩ := h active hactive
  -- no connection is inside a chunk
  have hnone : ∀ i, r.chunks i = none := by
    intro i
    rw [Receiver.chunks]
    cases hc : r.connections[i]? with
    | none => rfl
    | some c =>
        refine if_neg fun hin => ?_
        have hfinished := (hconnections.finished hfins).2 c (List.mem_of_getElem? hc)
        rw [((hconnections.ok i c hc).finished hfinished).2.1] at hin
        cases hin
  have hquiet := checkReceived_quiet r.options active.init.totalSize.toNat active.session run.world
  rw [hcheck] at hquiet
  have htemp : s.manifest.tempPath = active.session.manifest.tempPath := hquiet.calls.tempPath
  refine ⟨content, ?_⟩
  rw [UploadRun.receive, hreceive]
  have hgrows : r.transfer.Grows
      { r.transfer with active := some { active with session := s } } := by
    refine ⟨fun _ h => h, rfl, fun _ h => (by cases h), fun a a' ha ha' => ?_⟩
    obtain rfl := Option.some.inj (hactive.symm.trans ha)
    obtain rfl := Option.some.inj ha'
    rfl
  obtain ⟨hok, hdistinct, hcount, haccepted, hstreams⟩ := hconnections.transfer hgrows rfl
  refine ⟨⟨hok, hdistinct, hcount, haccepted, hstreams⟩, rfl, hfins, checkReceived_ok hcheck, ?_,
    fun hcollision record hrecord => ?_⟩
  · show w'.files s.manifest.tempPath = some content
    rw [htemp, hsound.temp_kept hquiet.calls]
    exact hfile
  · have hcovered := hs.ok.records.covered_subset hquiet.records_subset (hfileOk.covered hnone)
    obtain ⟨hle, seg, hseg, hstored⟩ := (hquiet.calls.sound hs).ok.records.slice_eq
      (NoCollision.mono hcollision fun seg hseg => Or.inl (Or.inl hseg)) hcovered hrecord
    exact ⟨hle, seg, Or.inl (Or.inl hseg), hstored⟩

/-- What holds of a receiver in a run. -/
structure ReceiverOk (path : Path) (run : UploadRun) (r : Receiver) : Prop where
  path : r.options.path = path
  crc : r.options.checksumAlgorithm = .crc32c
  invariant : r.Invariant r.options
  planned : RecordsAre ChunkChecksumRecord.Planned r.options r.transfer.active run.world
  receiving : r.phase = .receiving →
    r.ConnectionsOk ∧ TempOk run.contents run.gathered r run.world
  verified : r.phase = .verified → ∃ active content, Complete run r active content
  committed : r.phase = .committed → ∃ active content, Committed run r active content
  silent : (∀ status, r.phase ≠ .returned status) →
    ∀ f ∈ r.transfer.sent, f.header.type ≠ .complete
  told : (∃ f ∈ r.transfer.sent, f.header.type = .complete) →
    ∃ active content, Committed run r active content

namespace ReceiverOk

variable {path : Path} {run : UploadRun} {r : Receiver} {event : Event}

/-- A receiver that has just started. -/
theorem start {options : FileTransferOptions} {w w' : World}
    (hpath : options.path = path) (hcrc : options.checksumAlgorithm = .crc32c)
    (hdisk : DiskSays parseTransferManifest w (manifestPathForOutput path)
      (Manifest.RecordsAre ChunkChecksumRecord.Planned)) (hstart : Receiver.start options w = (.ok r, w')) :
    ReceiverOk path ⟨some r, w', fun _ => [], ∅, false⟩ r := by
  have hinvariant := Receiver.Invariant.start hstart
  obtain ⟨rfl, hframe⟩ := Receiver.start_ok hstart
  refine ⟨hpath, hcrc, hinvariant, ⟨?_, fun a ha => (by cases ha)⟩,
    fun _ => ⟨⟨?_, ?_, rfl, Nat.zero_le _, List.length_replicate ..⟩,
      fun active ha => (by cases ha)⟩, fun h => (by cases h), fun h => (by cases h),
    fun _ f hf => (by cases hf), ?_⟩
  · rw [hpath]
    exact hdisk.congr (hframe.files _ (Set.notMem_empty _))
  · intro i c hc
    cases hc
  · intro i j a b _ ha
    cases ha
  · rintro ⟨f, hf, -⟩
    cases hf

/-- A receiver that does nothing. -/
theorem kept (h : ReceiverOk path run r) (hstep : r.step event run.world = (r, run.world))
    (htakes : r.phase = .receiving → r.takes event = none) :
    ReceiverOk path (run.receive r event) r := by
  have hworld : (run.receive r event).world = run.world := by
    rw [UploadRun.receive, hstep]
  have hmono := run.subset_receive r event
  have hmarked : run.committed = true → (run.receive r event).committed = true := by
    intro hmarked
    rw [UploadRun.receive, hmarked]
    rfl
  have hcommitted : ∀ {active content}, Committed run r active content →
      Committed (run.receive r event) r active content := by
    intro active content hc
    refine ⟨hc.active', hmarked hc.marked, ?_, fun hn => hc.intact (NoCollision.mono hn hmono)⟩
    rw [hworld]
    exact hc.published
  refine ⟨h.path, h.crc, h.invariant, ?_, fun hphase => ?_, fun hphase => ?_, fun hphase => ?_,
    h.silent, fun htold => ?_⟩
  · rw [hworld]
    exact h.planned
  · have hgather : (run.receive r event).gathered = run.gathered := by
      rw [UploadRun.receive, UploadRun.gather, htakes hphase]
    rw [hworld, hgather]
    exact ⟨(h.receiving hphase).1, (h.receiving hphase).2.mono hmono⟩
  · obtain ⟨active, content, hc⟩ := h.verified hphase
    refine ⟨active, content, hc.connections, hc.active', hc.fins, hc.missing, ?_,
      fun hn record hrecord => ?_⟩
    · rw [hworld]
      exact hc.file
    · obtain ⟨hle, seg, hseg, hstored⟩ := hc.stored (NoCollision.mono hn hmono) record hrecord
      exact ⟨hle, seg, hmono hseg, hstored⟩
  · obtain ⟨active, content, hc⟩ := h.committed hphase
    exact ⟨active, content, hcommitted hc⟩
  · obtain ⟨active, content, hc⟩ := h.told htold
    exact ⟨active, content, hcommitted hc⟩

/-- **An event that is taken while frames come in.** -/
theorem receive (h : ReceiverOk path run r) (hphase : r.phase = .receiving) (event : Event) :
    ReceiverOk path (run.receive r event) (r.step event run.world).1 := by
  obtain ⟨hconnections, htemp⟩ := h.receiving hphase
  have hsilent := h.silent (fun status hreturned => by
    rw [hphase] at hreturned
    cases hreturned)
  have hstep : r.step event run.world = r.receive event run.world := by
    unfold Receiver.step
    rw [hphase]
  have hends := r.receive_ends event run.world
  have hoptions := (r.step_keepsConnections event run.world).options
  have hinvariant := h.invariant.step event run.world
  have hplanned := @Receiver.step_recordsAre _ r _ _ h.invariant h.crc h.planned event
    fun _ => Receiver.records_planned h.invariant.sound h.crc event
  have hreceived := @TempOk.step _ _ event htemp hconnections h.invariant.sound h.crc hphase
  have hpublishes : r.publishes event run.world = false := by
    unfold Receiver.publishes
    rw [hphase]
  have hrun : run.receive r event = ⟨some (r.step event run.world).1, (r.step event run.world).2,
      run.gather r event, (run.receive r event).contents, run.committed⟩ := by
    rw [UploadRun.receive, hpublishes, Bool.or_false]
  have hverified := fun active s w' => @Complete.of_checkReceived run r event active s w'
  rw [← hstep] at hends
  generalize (run.receive r event).contents = contents at hrun hreceived
  rw [hrun]
  rw [hrun] at hverified
  generalize r.step event run.world = result at *
  obtain ⟨r', w'⟩ := result
  have hsame : r'.options = r.options := hoptions
  have hcrc := hsame ▸ h.crc
  rw [← hsame] at hinvariant hplanned
  -- while frames come in, only the connections and the temp file matter
  have hreceiving : r'.phase = .receiving → (∀ f ∈ r'.transfer.sent, f.header.type ≠ .complete) →
      ReceiverOk path ⟨some r', w', run.gather r event, contents, run.committed⟩ r' := by
    intro hphase' hsilent'
    refine ⟨hsame ▸ h.path, hcrc, hinvariant, hplanned, hreceived, fun hp => ?_, fun hp => ?_,
      fun _ => hsilent', fun htold => ?_⟩
    · rw [hphase'] at hp
      cases hp
    · rw [hphase'] at hp
      cases hp
    · obtain ⟨f, hf, htype⟩ := htold
      exact absurd htype (hsilent' f hf)
  cases hends with
  | kept htakes => exact hreceiving hphase hsilent
  | accepted hevent hlt => exact hreceiving hphase hsilent
  | header hevent hc hstate hresult =>
      refine hreceiving hphase fun f hf => ?_
      exact hsilent f ((processCompletedHeader_kept hresult).2 ▸ hf)
  | @payload i bytes c c' t w' htakes hc hstate hlength hresult =>
      have hsent := processCompletedPayload_noComplete r.options i c r.transfer bytes run.world
      rw [hresult] at hsent
      exact hreceiving hphase fun f hf htype => hsilent f (hsent f hf htype) htype
  | @verified active s w' hevent hactive hcomplete hcheck =>
      obtain ⟨content, hdone⟩ := hverified active s w' (h.invariant.sound active hactive)
        hconnections htemp hactive hcomplete hcheck rfl
      refine ⟨h.path, hcrc, hinvariant, hplanned, fun hp => (by cases hp),
        fun _ => ⟨_, content, hdone⟩, fun hp => (by cases hp), fun _ => hsilent, fun htold => ?_⟩
      obtain ⟨f, hf, htype⟩ := htold
      exact absurd htype (hsilent f hf)
  | @returned r' w' e hphase' hsent =>
      refine ⟨hsame ▸ h.path, hcrc, hinvariant, hplanned, fun hp => ?_, fun hp => ?_,
        fun hp => ?_, fun hopen => absurd hphase' (hopen _), fun htold => ?_⟩
      · rw [hphase'] at hp
        cases hp
      · rw [hphase'] at hp
        cases hp
      · rw [hphase'] at hp
        cases hp
      · obtain ⟨f, hf, htype⟩ := htold
        exact absurd htype (hsilent f (hsent f hf htype))

/-- **The rename**, and what follows up to `markCommitted`. -/
theorem rename (h : ReceiverOk path run r) (hphase : r.phase = .verified) :
    ReceiverOk path (run.receive r .proceed) (r.step .proceed run.world).1 := by
  obtain ⟨active, content, hc⟩ := h.verified hphase
  have hsilent := h.silent (fun status hreturned => by
    rw [hphase] at hreturned
    cases hreturned)
  have hstep : r.step .proceed run.world = r.rename active run.world := by
    unfold Receiver.step
    rw [hphase]
    simp only [hc.active']
  have hpublishes : r.publishes .proceed run.world =
      (publish transferSessionFormat r.options.toCommitOptions active.session run.world).1.toBool := by
    unfold Receiver.publishes
    rw [hphase]
    simp only [hc.active']
  have hquiet := publish_quiet transferSessionFormat r.options.toCommitOptions active.session
    run.world
  have hoptions := (r.step_keepsConnections .proceed run.world).options
  have hinvariant := h.invariant.step .proceed run.world
  have hplanned := @Receiver.step_recordsAre _ r _ _ h.invariant h.crc h.planned .proceed
    fun _ => Receiver.records_planned h.invariant.sound h.crc .proceed
  rw [← hoptions] at hinvariant hplanned
  have hmono := run.subset_receive r .proceed
  have hworld : (run.receive r .proceed).world = (r.step .proceed run.world).2 := rfl
  have hmarked : (run.receive r .proceed).committed =
      (run.committed || r.publishes .proceed run.world) := rfl
  generalize run.receive r .proceed = run' at *
  rw [hstep, Receiver.rename] at hinvariant hplanned hworld hoptions ⊢
  rcases hresult : publish transferSessionFormat r.options.toCommitOptions active.session run.world
    with ⟨e | _, s, w'⟩
  · -- the rename or what follows it has failed
    rw [hresult] at hinvariant hplanned hworld
    refine ⟨h.path, h.crc, hinvariant, ?_, fun hp => (by cases hp), fun hp => (by cases hp),
      fun hp => (by cases hp), fun hopen => absurd rfl (hopen _), fun htold => ?_⟩
    · rw [hworld]
      exact hplanned
    · obtain ⟨f, hf, htype⟩ := htold
      have hsent := Receiver.finish_noComplete (t := r.transfer) (r := { r with
        transfer := { r.transfer with active := some { active with session := s } } })
        (fun _ hf _ => hf) e
      exact absurd htype (hsilent f (hsent f hf htype))
  · rw [hresult] at hinvariant hplanned hworld hquiet hpublishes
    have hpublished := (h.invariant.sound active hc.active').published hc.file hresult
    refine ⟨h.path, h.crc, hinvariant, ?_, fun hp => (by cases hp), fun hp => (by cases hp),
      fun _ => ⟨_, content, rfl, ?_, ?_, fun hn record hrecord => ?_⟩, fun _ => hsilent,
      fun htold => ?_⟩
    · rw [hworld]
      exact hplanned
    · rw [hmarked, hpublishes]
      exact Bool.or_true _
    · rw [hworld]
      exact hpublished
    · exact hc.intact (NoCollision.mono hn hmono) record (hquiet.records_subset hrecord)
    · obtain ⟨f, hf, htype⟩ := htold
      exact absurd htype (hsilent f hf)

/-- **The COMPLETE frames.** -/
theorem complete (h : ReceiverOk path run r) (hphase : r.phase = .committed) :
    ReceiverOk path (run.receive r .proceed) (r.step .proceed run.world).1 := by
  obtain ⟨active, content, hc⟩ := h.committed hphase
  have hstep : r.step .proceed run.world = r.complete run.world := by
    unfold Receiver.step
    rw [hphase]
  have hframe := Receiver.sendStatusToConnections_frame r.connections.length run.world
  have hinvariant := h.invariant.step .proceed run.world
  have hplanned := @Receiver.step_recordsAre _ r _ _ h.invariant h.crc h.planned .proceed
    fun _ => Receiver.records_planned h.invariant.sound h.crc .proceed
  have hmono := run.subset_receive r .proceed
  have hmarked : run.committed = true → (run.receive r .proceed).committed = true := by
    intro hmarked
    rw [UploadRun.receive, hmarked]
    rfl
  have hworld : (run.receive r .proceed).world = (r.complete run.world).2 := by
    rw [UploadRun.receive, hstep]
  generalize run.receive r .proceed = run' at *
  rw [hstep] at hinvariant hplanned ⊢
  refine ⟨h.path, h.crc, hinvariant, ?_, fun hp => (by cases hp), fun hp => (by cases hp),
    fun hp => (by cases hp), fun hopen => absurd rfl (hopen _),
    fun _ => ⟨active, content, hc.active', hmarked hc.marked, ?_,
      fun hn => hc.intact (NoCollision.mono hn hmono)⟩⟩
  · rw [hworld]
    exact hplanned
  · rw [hworld]
    exact ⟨(hframe.files _ (Set.notMem_empty _)).trans hc.published.output,
      hc.published.manifest.congr (hframe.files _ (Set.notMem_empty _))⟩

/-- **Every event** leaves the receiver in order. -/
theorem step (h : ReceiverOk path run r) (event : Event) :
    ReceiverOk path (run.receive r event) (r.step event run.world).1 := by
  -- where nothing happens
  have hkept : r.step event run.world = (r, run.world) → r.phase ≠ .receiving →
      ReceiverOk path (run.receive r event) (r.step event run.world).1 := by
    intro hstep hphase
    rw [hstep]
    exact h.kept hstep fun hp => absurd hp hphase
  have hother : event ≠ .proceed → r.phase ≠ .receiving →
      r.step event run.world = (r, run.world) := by
    intro hne hphase
    unfold Receiver.step
    cases hp : r.phase with
    | receiving => exact absurd hp hphase
    | verified =>
        cases event with
        | proceed => exact absurd rfl hne
        | accepted => rfl
        | header index encoded => rfl
        | payload index bytes => rfl
        | lost status => rfl
    | committed =>
        cases event with
        | proceed => exact absurd rfl hne
        | accepted => rfl
        | header index encoded => rfl
        | payload index bytes => rfl
        | lost status => rfl
    | returned status => rfl
  cases hphase : r.phase with
  | receiving => exact h.receive hphase event
  | verified =>
      have hbusy : r.phase ≠ .receiving := by
        rw [hphase]
        exact Phase.noConfusion
      by_cases hevent : event = .proceed
      · subst hevent
        exact h.rename hphase
      · exact hkept (hother hevent hbusy) hbusy
  | committed =>
      have hbusy : r.phase ≠ .receiving := by
        rw [hphase]
        exact Phase.noConfusion
      by_cases hevent : event = .proceed
      · subst hevent
        exact h.complete hphase
      · exact hkept (hother hevent hbusy) hbusy
  | returned status =>
      refine hkept ?_ fun hp => ?_
      · unfold Receiver.step
        rw [hphase]
      · rw [hphase] at hp
        cases hp

end ReceiverOk

/-! ### Uploads against arbitrary clients -/

/-- What holds of a run. -/
structure UploadRun.Ok (path : Path) (run : UploadRun) : Prop where
  disk : DiskSays parseTransferManifest run.world (manifestPathForOutput path)
    (Manifest.RecordsAre ChunkChecksumRecord.Planned)
  receiver : ∀ r, run.receiver = some r → ReceiverOk path run r

theorem UploadRun.ok_of_reachable {path : Path} {run : UploadRun}
    (h : (uploadRuns path).Reachable run) : run.Ok path := by
  apply h.invariant
  · rintro run ⟨hnone, hdisk⟩
    refine ⟨fun text _ htext => ?_, fun r hr => ?_⟩
    · rw [hdisk] at htext
      cases htext
    · rw [hnone] at hr
      cases hr
  · intro event run run' _ hok hstep
    -- what the receiver knows of the disk is what the run knows of it
    have hdisk : ∀ {run' : UploadRun} {r : Receiver}, ReceiverOk path run' r →
        DiskSays parseTransferManifest run'.world (manifestPathForOutput path)
          (Manifest.RecordsAre ChunkChecksumRecord.Planned) := by
      intro run' r hr
      have hplanned := hr.planned.disk
      rwa [hr.path] at hplanned
    cases event with
    | attempt options w =>
        obtain ⟨hpath, hcrc, hmanifest, r, w', hstart, rfl⟩ := hstep
        have hw : DiskSays parseTransferManifest w (manifestPathForOutput path)
            (Manifest.RecordsAre ChunkChecksumRecord.Planned) := by
          rcases hmanifest with hsame | hgone
          · exact hok.disk.congr hsame
          · intro text _ htext
            rw [hgone] at htext
            cases htext
        have hr := ReceiverOk.start hpath hcrc hw hstart
        refine ⟨hdisk hr, fun r' hr' => ?_⟩
        obtain rfl := Option.some.inj hr'
        exact hr
    | received event =>
        obtain ⟨r, hr, rfl⟩ := hstep
        have hr' := (hok.receiver r hr).step event
        refine ⟨hdisk hr', fun r' hget => ?_⟩
        obtain rfl := Option.some.inj hget
        exact hr'

/-- Every connection has initialised a stream of its own and sent one FIN, the
records are the chunks of the plan (which does not depend on the number of
connections), and the bytes of each in the temp file have its checksum. -/
structure Receiver.Received (r : Receiver) (w : World) (active : ActiveTransfer) (content : Bytes) :
    Prop where
  session : r.transfer.active = some active
  accepted : r.connections.length = r.options.connections
  initialised : ∀ c ∈ r.connections,
    c.hasStream = true ∧ c.sessionReady = true ∧ c.finReceived = true
  streams : (r.connections.map (·.streamId)).Nodup
  fins : r.transfer.finConnections = r.connections.length
  planned : ∀ connections chunks,
    planChunks active.init.totalSize.toNat active.init.chunkSize.toNat connections = .ok chunks →
      (active.session.records.map ChunkChecksumRecord.place).Perm (chunks.map ChunkRange.place)
  file : w.files active.session.manifest.tempPath = some content
  intact : ∀ record ∈ active.session.records, record.Intact content

theorem Complete.received {run : UploadRun} {r : Receiver} {active : ActiveTransfer}
    {content : Bytes} (h : Complete run r active content) (hsound : active.Sound r.options)
    (hplanned : active.session.manifest.RecordsAre ChunkChecksumRecord.Planned)
    (hcollision : NoCollision run.contents) :
    r.Received run.world active content := by
  obtain ⟨hardware, hs⟩ := hsound.session
  obtain ⟨hlength, hfins⟩ := h.connections.finished h.fins
  have hready : ∀ (i : Nat) (c : FileServerConnection), r.connections[i]? = some c →
      c.hasStream = true ∧ c.sessionReady = true ∧ c.finReceived = true := by
    intro i c hc
    have hok := h.connections.ok i c hc
    have hfin := hfins c (List.mem_of_getElem? hc)
    obtain ⟨hready, -⟩ := hok.finished hfin
    exact ⟨(hok.ready hready).1, hready, hfin⟩
  refine ⟨h.active', hlength, fun c hc => ?_, ?_, h.fins.trans hlength.symm,
    fun connections chunks hplan => ?_, h.file, h.intact hcollision⟩
  · obtain ⟨i, hi⟩ := List.getElem?_of_mem hc
    exact hready i c hi
  · apply List.pairwise_iff_getElem.mpr
    intro i j hi hj hij heq
    rw [List.length_map] at hi hj
    rw [List.getElem_map, List.getElem_map] at heq
    have ha := List.getElem?_eq_getElem hi
    have hb := List.getElem?_eq_getElem hj
    exact h.connections.distinct i j _ _ hij.ne ha hb (hready i _ ha).1 (hready j _ hb).1 heq
  · have htotal : active.session.manifest.totalSize = active.init.totalSize.toNat :=
      hs.opened.totalSize
    have hchunk : active.session.manifest.chunkSize = active.init.chunkSize.toNat :=
      hs.opened.chunkSize
    rw [← htotal, ← hchunk] at hplan
    exact hs.ok.places_perm hplanned h.missing hplan

/-- **A receiver against any clients**: when it comes to the rename, every
connection has finished, and the temp file holds exactly the chunks of the plan
with the checksums that were recorded; and by the time a COMPLETE frame is sent,
that content is the output and the manifest is committed. -/
theorem upload_integrity (path : Path) {run : UploadRun} (hrun : (uploadRuns path).Reachable run)
    (hcollision : NoCollision run.contents) {r : Receiver} (hr : run.receiver = some r) :
    (r.phase = .verified → ∃ active content, r.Received run.world active content) ∧
    ((∃ f ∈ r.transfer.sent, f.header.type = .complete) → run.committed = true ∧
      ∃ active content, r.transfer.active = some active ∧
        Published parseTransferManifest path content active.session run.world ∧
        ∀ record ∈ active.session.records, record.Intact content) := by
  have hok := (UploadRun.ok_of_reachable hrun).receiver r hr
  constructor
  · intro hphase
    obtain ⟨active, content, hcomplete⟩ := hok.verified hphase
    exact ⟨active, content, hcomplete.received
      (hok.invariant.sound active hcomplete.active')
      (hok.planned.session active hcomplete.active') hcollision⟩
  · intro htold
    obtain ⟨active, content, hc⟩ := hok.told htold
    have hpublished := hc.published
    rw [hok.path] at hpublished
    exact ⟨hc.marked, active, content, hc.active', hpublished, hc.intact hcollision⟩

/-! ### An upload of one byte -/

/-- The segments an event adds to the contents of a run, where no session is
opened. -/
def UploadRun.endedSegments (run : UploadRun) (r : Receiver) (event : Event) :
    List (Segment UInt8) :=
  match r.takes event with
  | some (index, c, _) =>
      if c.currentHeader.type = .chunkComplete then [⟨c.activeChunkOffset, run.gathered index⟩]
      else []
  | none => []

/-- The segments a session finds when the event opens it. -/
def UploadRun.foundSegments (r r' : Receiver) (w : World) : List (Segment UInt8) :=
  match r.transfer.active, r'.transfer.active with
  | none, some active =>
      active.session.records.map fun record => ⟨record.offset, World.slice
        ((w.files active.session.manifest.tempPath).getD []) record.offset record.length⟩
  | _, _ => []

theorem UploadRun.receive_contents (run : UploadRun) (r : Receiver) (event : Event) :
    (run.receive r event).contents ⊆ run.contents ∪ { seg | seg ∈ run.endedSegments r event ++
      UploadRun.foundSegments r (r.step event run.world).1 (r.step event run.world).2 } := by
  rintro seg ((hseg | ⟨index, c, bytes, htakes, htype, -, rfl⟩) |
    ⟨hnone, active, content, hactive, hfile, record, hrecord, rfl⟩)
  · exact Or.inl hseg
  · refine Or.inr (List.mem_append_left _ ?_)
    rw [endedSegments, htakes]
    simp [htype]
  · refine Or.inr (List.mem_append_right _ ?_)
    rw [foundSegments, hnone, hactive]
    simp only [hfile, Option.getD_some]
    exact List.mem_map_of_mem hrecord

/-- The run after an event of its receiver, with the segments so far. -/
def UploadRun.follow (st : UploadRun × List (Segment UInt8)) (event : Event) :
    UploadRun × List (Segment UInt8) :=
  match st.1.receiver with
  | none => st
  | some r => (st.1.receive r event, st.2 ++ (st.1.endedSegments r event ++
      UploadRun.foundSegments r (r.step event st.1.world).1 (r.step event st.1.world).2))

theorem UploadRun.follow_reachable {path : Path} {st : UploadRun × List (Segment UInt8)}
    (hrun : (uploadRuns path).Reachable st.1) (hcontents : st.1.contents ⊆ { seg | seg ∈ st.2 })
    (events : List Event) :
    (uploadRuns path).Reachable (events.foldl UploadRun.follow st).1 ∧
      (events.foldl UploadRun.follow st).1.contents ⊆
        { seg | seg ∈ (events.foldl UploadRun.follow st).2 } := by
  induction events generalizing st with
  | nil => exact ⟨hrun, hcontents⟩
  | cons event events ih =>
      obtain ⟨run, segs⟩ := st
      cases hr : run.receiver with
      | none =>
          rw [List.foldl_cons, UploadRun.follow, hr]
          exact ih hrun hcontents
      | some r =>
          rw [List.foldl_cons, UploadRun.follow, hr]
          have hstep : (uploadRuns path).step (.received event) run (run.receive r event) :=
            ⟨r, hr, rfl⟩
          refine ih (hrun.step hstep) fun seg hseg => ?_
          rcases run.receive_contents r event hseg with hold | hnew
          · exact List.mem_append_left _ (hcontents hold)
          · exact List.mem_append_right _ hnew

/-- Is the rename the next step? -/
def UploadRun.atRename (run : UploadRun) : Bool :=
  match run.receiver with
  | none => false
  | some r =>
      match r.phase with
      | .verified => true
      | _ => false

theorem UploadRun.atRename_iff {run : UploadRun} :
    run.atRename = true ↔ ∃ r, run.receiver = some r ∧ r.phase = .verified := by
  rw [atRename]
  cases run.receiver with
  | none => simp
  | some r => cases hphase : r.phase <;> simp [hphase]

/-- One connection, and the checksums taken while receiving are trusted. -/
def oneByteOptions : FileTransferOptions where
  path := ascii "o"
  checksumAlgorithm := .crc32c
  finalVerifyPolicy := .verifiedChunks
  commitSyncPolicy := .none
  overwrite := false
  connections := 1
  bufferSize := 64
  transferId := []
  checksumBackend := .software
  manifestFlushPolicy := .everyNChunks
  manifestFlushIntervalChunks := 1
  preallocateMode := .off
  fileIo := {}
  resume := false

/-- A frame as its header and its payload arrive. -/
def frameEvents (header : FrameHeader) (payload : Bytes) : List Event :=
  .header 0 (encodeFrameHeader { header with payloadSize := UInt32.ofNat payload.length }) ::
    if payload = [] then [] else [.payload 0 payload]

/-- A client sends the byte `65`, up to its FIN. -/
def oneByteEvents : List Event :=
  let body := match encodeSessionInitPayload ⟨.new, ascii "t", 1, 1, .crc32c, []⟩,
      encodeChunkCompletePayload ⟨0, 0, 1, checksumOf .crc32c [65]⟩ with
    | .ok init, .ok complete =>
        frameEvents { type := .sessionInit } init ++
          frameEvents { type := .data, totalSize := 1 } [65] ++
          frameEvents { type := .chunkComplete, totalSize := 1 } complete ++
          frameEvents { type := .fin, totalSize := 1 } []
    | _, _ => []
  .accepted :: body ++ [.proceed]

/-- The run before its first event. -/
def oneByteStart : UploadRun :=
  ⟨some ⟨oneByteOptions, .receiving, [], ⟨none, 0, [false], []⟩⟩, .withFiles fun _ => none,
    fun _ => [], ∅, false⟩

def oneByteRun : UploadRun × List (Segment UInt8) :=
  oneByteEvents.foldl UploadRun.follow (oneByteStart, [])

theorem oneByteRun_reachable : (uploadRuns (ascii "o")).Reachable oneByteRun.1 ∧
    oneByteRun.1.contents ⊆ { seg | seg ∈ oneByteRun.2 } := by
  apply UploadRun.follow_reachable
  · have hnothing : (uploadRuns (ascii "o")).Reachable
        ⟨none, .withFiles fun _ => none, fun _ => [], ∅, false⟩ := .initial ⟨rfl, rfl⟩
    refine hnothing.step (l := .attempt oneByteOptions (.withFiles fun _ => none)) ?_
    exact ⟨rfl, rfl, Or.inl rfl, _, _, rfl, rfl⟩
  · exact Set.empty_subset _

/-- The byte is in the temp file when the receiver comes to the rename. -/
theorem upload_integrity_oneByte : ∃ r active content, oneByteRun.1.receiver = some r ∧
    r.phase = .verified ∧ r.Received oneByteRun.1.world active content := by
  obtain ⟨hrun, hcontents⟩ := oneByteRun_reachable
  obtain ⟨r, hr, hphase⟩ := UploadRun.atRename_iff.mp (show oneByteRun.1.atRename = true by
    decide +kernel)
  have hsegments : oneByteRun.2 = [⟨0, [65]⟩] := by decide +kernel
  have hcollision : NoCollision oneByteRun.1.contents := by
    refine NoCollision.mono (fun a ha b hb => ?_) hcontents
    have ha' : a ∈ oneByteRun.2 := ha
    have hb' : b ∈ oneByteRun.2 := hb
    rw [hsegments, List.mem_singleton] at ha' hb'
    rw [ha', hb']
    exact fun _ _ _ => rfl
  obtain ⟨active, content, hreceived⟩ := (upload_integrity (ascii "o") hrun hcollision hr).1 hphase
  exact ⟨r, active, content, hr, hphase, hreceived⟩

end FileTransferServer

end GridFlux
