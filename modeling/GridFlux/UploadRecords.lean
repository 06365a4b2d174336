/-
GridFlux/UploadRecords.lean

What is known of the records of an upload.

A session that is resumed takes its records out of a manifest this receiver has
written.  So what holds of every record when it is made holds at all times of the
records in memory and of those that may be read back from disk
(`Receiver.step_recordsAre`).  The receiver takes a CHUNK_COMPLETE only for a
range that the plan has, so its records are planned; and planned records that
leave nothing missing are the whole plan (`Session.Ok.places_perm`).
-/
import GridFlux.ManifestRecords
import GridFlux.UploadRuns

namespace GridFlux

open HalfOpen TextCodec Transition SharedFile

/-! ### Planned records -/

/-- The record is of a chunk of the plan. -/
structure ChunkChecksumRecord.Planned (chunkSize totalSize : Nat)
    (record : ChunkChecksumRecord) : Prop where
  offset : record.offset = record.chunkId * chunkSize
  inside : record.offset < totalSize
  length : record.length = min chunkSize (totalSize - record.offset)

/-- What a record says of its place. -/
def ChunkChecksumRecord.place (record : ChunkChecksumRecord) : Nat × Nat × Nat :=
  (record.chunkId, record.offset, record.length)

def ChunkRange.place (chunk : ChunkRange) : Nat × Nat × Nat :=
  (chunk.chunkId, chunk.offset, chunk.length)

/-- **Planned records with nothing missing** are the chunks of the plan. -/
theorem Session.Ok.places_perm {P : Type} {s : Session P} (h : s.Ok)
    (hplanned : s.manifest.RecordsAre ChunkChecksumRecord.Planned)
    (hmissing : s.missingRanges = [])
    {connections : Nat} {chunks : List ChunkRange}
    (hplan : planChunks s.manifest.totalSize s.manifest.chunkSize connections = .ok chunks) :
    (s.records.map ChunkChecksumRecord.place).Perm (chunks.map ChunkRange.place) := by
  obtain ⟨hchunk, -⟩ := planChunks_eq hplan
  have hpos := Nat.pos_of_ne_zero hchunk
  refine (List.perm_ext_iff_of_nodup ?_ ?_).mpr fun place => ?_
  · -- records of one place share their bytes
    have hrecords : s.records.Pairwise fun a b => a.place ≠ b.place := by
      refine (List.pairwise_map.mp h.records.separated).imp_of_mem fun {a b} ha _ hab heq => ?_
      have hbounded := (h.records.bounded _ (List.mem_map_of_mem ha)).1
      simp only [ChunkChecksumRecord.place, Prod.mk.injEq] at heq
      simp only [ChunkChecksumRecord.range] at hab hbounded
      omega
    exact List.pairwise_map.mpr hrecords
  · refine List.Nodup.map_on (fun a ha b hb hab => ?_) (nodup_planChunks hplan)
    obtain ⟨-, heq⟩ := (mem_planChunks hplan).mp ha
    obtain ⟨-, heq'⟩ := (mem_planChunks hplan).mp hb
    have hid : a.chunkId = b.chunkId := congrArg Prod.fst hab
    rw [heq, heq', hid]
  · rw [List.mem_map, List.mem_map]
    constructor
    · rintro ⟨record, hrecord, rfl⟩
      obtain ⟨hoffset, hinside, hlength⟩ := hplanned record hrecord
      refine ⟨plannedChunk s.manifest.totalSize s.manifest.chunkSize connections record.chunkId,
        (mem_planChunks hplan).mpr ⟨?_, rfl⟩, ?_⟩
      · rw [hoffset] at hinside
        exact hinside
      · rw [ChunkRange.place, plannedChunk, ChunkChecksumRecord.place, hlength, hoffset]
    · rintro ⟨chunk, hc, rfl⟩
      obtain ⟨hlt, heq⟩ := (mem_planChunks hplan).mp hc
      -- the record that has the first byte of the chunk
      have hcovered : chunk.chunkId * s.manifest.chunkSize ∈ covered (recordRanges s.records) := by
        rw [← h.derived.covered_eq]
        by_contra hnot
        have hmem := (mem_missingRanges h).mpr ⟨hlt, hnot⟩
        rw [hmissing] at hmem
        obtain ⟨r, hr, -⟩ := hmem
        cases hr
      obtain ⟨range, hrange, hx⟩ := hcovered
      obtain ⟨record, hrecord, rfl⟩ := List.mem_map.mp hrange
      obtain ⟨hoffset, hinside, hlength⟩ := hplanned record hrecord
      have hx' : record.offset ≤ chunk.chunkId * s.manifest.chunkSize ∧
          chunk.chunkId * s.manifest.chunkSize < record.offset + record.length := hx
      have hid : record.chunkId = chunk.chunkId := by
        rw [hlength, hoffset] at hx'
        apply Nat.le_antisymm
        · exact Nat.le_of_mul_le_mul_right hx'.1 hpos
        · refine Nat.lt_succ_iff.mp (Nat.lt_of_mul_lt_mul_right (a := s.manifest.chunkSize) ?_)
          rw [Nat.succ_mul]
          omega
      refine ⟨record, hrecord, ?_⟩
      rw [ChunkChecksumRecord.place, hlength, hoffset, hid, heq, ChunkRange.place, plannedChunk]

namespace FileTransferServer

/-- The records a receiver has, and those its manifest file may hold, are as `Q`
says. -/
structure RecordsAre (Q : Nat → Nat → ChunkChecksumRecord → Prop) (options : FileTransferOptions)
    (active : Option ActiveTransfer) (w : World) : Prop where
  disk : DiskSays parseTransferManifest w (manifestPathForOutput options.path)
    (Manifest.RecordsAre Q)
  session : ∀ a, active = some a → a.session.manifest.RecordsAre Q

variable {Q : Nat → Nat → ChunkChecksumRecord → Prop}

namespace RecordsAre

variable {options : FileTransferOptions} {active : ActiveTransfer} {s' : TransferSession}
  {before : Option ActiveTransfer} {w w' : World}

theorem frame (h : RecordsAre Q options before w) {S : Set Path} (hframe : World.Frame S w w')
    (hS : manifestPathForOutput options.path ∉ S) : RecordsAre Q options before w' :=
  ⟨h.disk.congr (hframe.files _ hS), h.session⟩

/-- The files a receiver changes by itself are not the manifest. -/
theorem notMem_ownFiles (hsound : active.Sound options) :
    manifestPathForOutput options.path ∉ ownFiles options active.session := by
  have hapart := transfer_filesApart (.withFiles fun _ => none) options.path active.init.transferId
  rw [ownFiles, hsound.tempPath]
  rintro (h | h)
  · exact hapart.temp_manifest h.symm
  · exact hapart.output_manifest h.symm

theorem quiet (h : RecordsAre Q options (some active) w) (hsound : active.Sound options)
    {S : Set Path} (hS : S ⊆ ownFiles options active.session)
    (hcalls : Session.QuietCalls transferSessionFormat S active.session w s' w') :
    RecordsAre Q options (some { active with session := s' }) w' := by
  obtain ⟨hardware, hs⟩ := hsound.session
  obtain ⟨hdisk, hrecords⟩ := hcalls.recordsAre transfer_readsBack hs
    (fun hmem => notMem_ownFiles hsound (hS hmem)) (h.session _ rfl) h.disk
  refine ⟨hdisk, fun a ha => ?_⟩
  obtain rfl := Option.some.inj ha
  exact hrecords

end RecordsAre

/-! ### Opening a session -/

/-- How `initializeSession` ends. -/
inductive InitEnds (options : FileTransferOptions) (init : SessionInitPayload) (w : World) :
    Option ActiveTransfer → Except TransferError Unit × Option ActiveTransfer × World → Prop
  | refused {before : Option ActiveTransfer} {w' : World} (e : TransferError)
      (hframe : World.Frame ∅ w w') : InitEnds options init w before (.error e, before, w')
  | again (active : ActiveTransfer) : InitEnds options init w (some active) (.ok (), some active, w)
  | opened {s₀ s : TransferSession} {w₀ w' : World} {result : Except TransferError Unit}
      (hcheck : checkSessionInit options init = .ok ())
      (hopens : openSession options init w = (.ok s₀, w₀))
      (hprepare : prepareSession options init s₀ w₀ = (result, s, w')) :
      InitEnds options init w none (result, some ⟨init, s⟩, w')

theorem initializeSession_ends (options : FileTransferOptions) (init : SessionInitPayload)
    (before : Option ActiveTransfer) (w : World) :
    InitEnds options init w before (initializeSession options init before w) := by
  rw [initializeSession]
  cases hcheck : checkSessionInit options init with
  | error e => exact .refused e (World.Frame.refl w)
  | ok _ =>
      cases hbackend : resolveChecksumBackend w.crc32cHardwareAvailable init.checksumAlgorithm
          options.checksumBackend with
      | error e => exact .refused _ (World.Frame.refl w)
      | ok backend =>
          simp only
          cases before with
          | some active =>
              cases hsame : checkSameSession active init backend with
              | error e =>
                  simp only [hsame]
                  exact .refused e (World.Frame.refl w)
              | ok _ =>
                  simp only [hsame]
                  exact .again active
          | none =>
              rcases hopens : openSession options init w with ⟨e | s₀, w₀⟩
              · exact .refused e (openSession_frame hopens)
              · exact .opened hcheck hopens rfl

theorem checkSessionInit_ok {options : FileTransferOptions} {init : SessionInitPayload} {u : Unit}
    (h : checkSessionInit options init = .ok u) :
    (init.mode = .resume ↔ options.resume = true) ∧
      init.checksumAlgorithm = options.checksumAlgorithm := by
  simp only [checkSessionInit, bind_eq_ok, check_eq_ok] at h
  obtain ⟨_, -, _, -, _, hmode, halgorithm⟩ := h
  exact ⟨iff_of_eq hmode, halgorithm⟩

/-- Which records an opened session has: none, or those of the manifest on
disk. -/
theorem openSession_records {options : FileTransferOptions} {init : SessionInitPayload}
    {s : TransferSession} {w w' : World} (hcrc : init.checksumAlgorithm = .crc32c)
    (h : openSession options init w = (.ok s, w')) :
    (init.mode ≠ .resume ∧ s.records = []) ∨
      (init.mode = .resume ∧ ∃ text manifest,
        w.files (manifestPathForOutput options.path) = some text ∧
        parseTransferManifest text = .ok manifest ∧ s.records = manifest.verifiedChunks ∧
        s.manifest.chunkSize = manifest.chunkSize ∧ s.manifest.totalSize = manifest.totalSize ∧
        s.manifest.tempPath = manifest.tempPath) := by
  rw [openSession] at h
  by_cases hmode : init.mode = .resume
  · refine Or.inr ⟨hmode, ?_⟩
    simp only [if_pos hmode] at h
    rcases hresume : TransferSession.resume (sessionRequest options init) w with ⟨e | s₁, w₁⟩
    · simp [hresume] at h
    · simp only [hresume, Prod.mk.injEq, Except.ok.injEq] at h
      obtain ⟨rfl, -⟩ := h
      exact @TransferSession.resume_records (sessionRequest options init) _ _ _ hcrc hresume
  · refine Or.inl ⟨hmode, ?_⟩
    simp only [if_neg hmode] at h
    rcases hcreate : TransferSession.createNew (sessionRequest options init) w with ⟨e | s₁, w₁⟩
    · simp [hcreate] at h
    · simp only [hcreate, Prod.mk.injEq, Except.ok.injEq] at h
      obtain ⟨rfl, -⟩ := h
      obtain ⟨backend, now, missing, -, -, rfl⟩ := TransferSession.createNew_ok hcreate
      rfl

theorem openSession_sound {options : FileTransferOptions} {init : SessionInitPayload}
    {s : TransferSession} {w w' : World} (hcheck : checkSessionInit options init = .ok ())
    (h : openSession options init w = (.ok s, w')) :
    ActiveTransfer.Sound options ⟨init, s⟩ :=
  ⟨hcheck, (openSession_opens h).valid, _, (openSession_opens h).sound.1⟩

/-- **Opening a session** takes planned records only. -/
theorem InitEnds.recordsAre {options : FileTransferOptions} {init : SessionInitPayload} {w : World}
    {before : Option ActiveTransfer} {r : Except TransferError Unit × Option ActiveTransfer × World}
    (h : InitEnds options init w before r) (hcrc : options.checksumAlgorithm = .crc32c)
    (hrecords : RecordsAre Q options before w) : RecordsAre Q options r.2.1 r.2.2 := by
  cases h with
  | refused e hframe => exact hrecords.frame hframe (Set.notMem_empty _)
  | again active => exact hrecords
  | @opened s₀ s w₀ w' result hcheck hopens hprepare =>
      have hsound := openSession_sound hcheck hopens
      have hopened : RecordsAre Q options (some ⟨init, s₀⟩) w₀ := by
        refine ⟨(hrecords.frame (openSession_frame hopens) (Set.notMem_empty _)).disk,
          fun a ha => ?_⟩
        obtain rfl := Option.some.inj ha
        rcases openSession_records ((checkSessionInit_ok hcheck).2.trans hcrc) hopens with
          ⟨-, hnil⟩ | ⟨-, text, manifest, htext, hparse, hsame, hchunk, htotal, -⟩
        · intro record hrecord
          rw [show s₀.manifest.verifiedChunks = [] from hnil] at hrecord
          exact (List.not_mem_nil hrecord).elim
        · exact (hrecords.disk text manifest htext hparse).congr hchunk htotal
            (hsame ▸ List.Subset.refl _)
      have hcalls := prepareSession_quiet options init s₀ w₀
      rw [hprepare] at hcalls
      exact hopened.quiet hsound (by simp [ownFiles]) hcalls

/-! ### Payloads -/

theorem validateExpectedChunkRange_ok {active : ActiveTransfer} {payload : ChunkCompletePayload}
    {u : Unit} (hcrc : active.init.checksumAlgorithm = .crc32c)
    (h : validateExpectedChunkRange active payload = .ok u) :
    payload.offset.toNat = payload.chunkId.toNat * active.init.chunkSize.toNat ∧
      payload.offset.toNat < active.init.totalSize.toNat ∧
      payload.length.toNat =
        min active.init.chunkSize.toNat (active.init.totalSize.toNat - payload.offset.toNat) := by
  have hne : ¬active.init.checksumAlgorithm = .none := by
    rw [hcrc]
    decide
  simp only [validateExpectedChunkRange, if_neg hne, bind_eq_ok, check_eq_ok, not_or, not_and_or,
    not_not] at h
  obtain ⟨_, -, _, hinside, _, htotal, hoffset, hlength⟩ := h
  rw [hoffset]
  exact ⟨rfl, Nat.lt_of_not_le (hinside.resolve_right htotal), hlength⟩

/-- What `checkChunkComplete` accepts: the chunk the connection is in. -/
structure ChunkChecked (c : FileServerConnection) (active : ActiveTransfer)
    (payload : ChunkCompletePayload) : Prop where
  active' : c.chunkActive = true
  offset : payload.offset.toNat = c.activeChunkOffset
  length : payload.length.toNat = c.activeChunkNextOffset - c.activeChunkOffset
  algorithm : payload.checksum.algorithm = active.init.checksumAlgorithm
  range : validateExpectedChunkRange active payload = .ok ()

theorem checkChunkComplete_ok {c : FileServerConnection} {active : ActiveTransfer} {bytes : Bytes}
    {payload : ChunkCompletePayload} (h : checkChunkComplete c active bytes = .ok payload) :
    ChunkChecked c active payload := by
  simp only [checkChunkComplete, bind_eq_ok, replying_eq_ok, check_eq_ok, not_or, not_not] at h
  obtain ⟨payload', -, _, ⟨hactive, -, hoffset, hlength⟩, _, halgorithm, _, hrange, heq⟩ := h
  obtain rfl := Except.ok.inj heq
  exact ⟨hactive, hoffset, hlength, halgorithm, hrange⟩

/-- The record of a CHUNK_COMPLETE payload. -/
def recordOf (payload : ChunkCompletePayload) : ChunkChecksumRecord :=
  ⟨payload.chunkId.toNat, payload.offset.toNat, payload.length.toNat, payload.checksum⟩

/-- Whatever a CHUNK_COMPLETE on the connection may record is as `Q` says. -/
def FileServerConnection.Records (Q : Nat → Nat → ChunkChecksumRecord → Prop)
    (c : FileServerConnection) (active : ActiveTransfer) (bytes : Bytes) : Prop :=
  ∀ payload, checkChunkComplete c active bytes = .ok payload →
    c.checksumComputer.finalize = payload.checksum →
      Q active.init.chunkSize.toNat active.init.totalSize.toNat (recordOf payload)

/-- **A CHUNK_COMPLETE** is taken in for chunks of the plan only. -/
theorem FileServerConnection.records_planned (c : FileServerConnection) {active : ActiveTransfer}
    (hcrc : active.init.checksumAlgorithm = .crc32c) (bytes : Bytes) :
    c.Records ChunkChecksumRecord.Planned active bytes := by
  intro payload hcheck _
  obtain ⟨hoffset, hinside, hlength⟩ :=
    validateExpectedChunkRange_ok hcrc (checkChunkComplete_ok hcheck).range
  exact ⟨hoffset, hinside, hlength⟩

theorem ChunkEnds.recordsAre {options : FileTransferOptions} {c : FileServerConnection}
    {active : ActiveTransfer} {bytes : Bytes} {w w' : World} {s : TransferSession}
    {result : Except TransferError FileServerConnection}
    (h : ChunkEnds c active bytes w (result, s, w')) (hnew : c.Records Q active bytes)
    (hsound : active.Sound options) (hrecords : RecordsAre Q options (some active) w) :
    RecordsAre Q options (some { active with session := s }) w' := by
  obtain ⟨hardware, hs⟩ := hsound.session
  have htemp : manifestPathForOutput options.path ∉
      ({active.session.manifest.tempPath} : Set Path) := fun hmem =>
    RecordsAre.notMem_ownFiles hsound (Or.inl hmem)
  have hframe : ∀ {status : Except Status Unit} {w₁ : World},
      w.runWrites active.session.manifest.tempPath c.writer.flush.1 = (status, w₁) →
        RecordsAre Q options (some active) w₁ := by
    intro status w₁ hrun
    have hwrites := w.runWrites_frame active.session.manifest.tempPath c.writer.flush.1
    rw [hrun] at hwrites
    exact hrecords.frame hwrites htemp
  cases h with
  | refused e => exact hrecords
  | flushed e hrun => exact hframe hrun
  | @recorded payload w₁ _ status _ _ hcheck hrun hchecksum hrecord hresult =>
      have hw₁ := hframe hrun
      have hnew' : Q active.session.manifest.chunkSize active.session.manifest.totalSize
          (recordOf payload) := by
        rw [hs.opened.chunkSize, hs.opened.totalSize]
        exact hnew payload hcheck hchecksum
      obtain ⟨hdisk, hsession⟩ := hs.recorded_recordsAre transfer_readsBack (hw₁.session _ rfl)
        hw₁.disk hnew' hrecord
      refine ⟨hdisk, fun a ha => ?_⟩
      obtain rfl := Option.some.inj ha
      exact hsession

theorem processCompletedPayload_recordsAre {options : FileTransferOptions} {index : Nat}
    {c : FileServerConnection} {t : TransferState} {bytes : Bytes} {w : World}
    (hcrc : options.checksumAlgorithm = .crc32c)
    (hsound : ∀ a, t.active = some a → a.Sound options)
    (hnew : ∀ a, t.active = some a → c.Records Q a bytes)
    (hrecords : RecordsAre Q options t.active w) :
    RecordsAre Q options (processCompletedPayload options index c t bytes w).2.2.1.active
      (processCompletedPayload options index c t bytes w).2.2.2 := by
  rw [processCompletedPayload]
  split
  · rw [processSessionInitPayload]
    cases decodeSessionInitPayload bytes with
    | error e => exact hrecords
    | ok init =>
        have hinit := (initializeSession_ends options init t.active w).recordsAre hcrc hrecords
        rcases h : initializeSession options init t.active w with ⟨e | _, _ | active, w₁⟩
        · rw [h] at hinit
          simp only [h]
          exact hinit
        · rw [h] at hinit
          simp only [h]
          exact hinit
        · rw [h] at hinit
          simp only [h]
          exact ⟨hinit.disk, fun a ha => by
            cases hactive : t.active with
            | none =>
                rw [show t.active = some a from ha] at hactive
                cases hactive
            | some active =>
                have hstep := initializeSession_step (S := ∅) h
                rw [hactive] at hstep
                cases hstep⟩
        · rw [h] at hinit
          simp only [h]
          cases resumeResponse options { c with sessionReady := true } active with
          | error e => exact hinit
          | ok frame =>
              have hsend := sendFrame_frame w₁
              rcases h' : sendFrame w₁ with ⟨e | _, w₂⟩
              · rw [h'] at hsend
                exact hinit.frame hsend (Set.notMem_empty _)
              · rw [h'] at hsend
                exact hinit.frame hsend (Set.notMem_empty _)
  · cases hactive : t.active with
    | none =>
        simp only [hactive]
        rw [hactive] at hrecords
        exact hrecords
    | some active =>
        have hsound' := hsound active hactive
        rw [hactive] at hrecords
        simp only
        split
        · have hends := processChunkCompletePayload_ends c active bytes w
          generalize processChunkCompletePayload c active bytes w = result at hends ⊢
          rcases result with ⟨e | c', s, w₁⟩
          · exact hends.recordsAre (hnew active hactive) hsound' hrecords
          · exact hends.recordsAre (hnew active hactive) hsound' hrecords
        · have hframe := processDataPayload_frame c active bytes w
          have htemp : manifestPathForOutput options.path ∉
              ({active.session.manifest.tempPath} : Set Path) := fun hmem =>
            RecordsAre.notMem_ownFiles hsound' (Or.inl hmem)
          rcases h : processDataPayload c active bytes w with ⟨e | c', w₁⟩
          · rw [h] at hframe
            simp only [hactive]
            exact hrecords.frame hframe htemp
          · rw [h] at hframe
            simp only [hactive]
            exact hrecords.frame hframe htemp

namespace Receiver

/-- Whatever the event may record is as `Q` says. -/
def Records (Q : Nat → Nat → ChunkChecksumRecord → Prop) (r : Receiver) (event : Event) : Prop :=
  ∀ i c bytes active, r.takes event = some (i, c, bytes) → r.transfer.active = some active →
    c.Records Q active bytes

variable {r : Receiver} {options : FileTransferOptions} {w : World}

theorem abort_recordsAre (hsound : ∀ a, r.transfer.active = some a → a.Sound options)
    (h : RecordsAre Q options r.transfer.active w) (e : TransferError) :
    RecordsAre Q options (r.abort e w).1.transfer.active (r.abort e w).2 := by
  rw [abort]
  cases hactive : r.transfer.active with
  | none =>
      show RecordsAre Q options r.transfer.active w
      exact h
  | some active =>
      rw [hactive] at h
      exact h.quiet (hsound active hactive) (Set.empty_subset _) (.op .markFailed rfl)

theorem receive_recordsAre (hinv : r.Invariant options)
    (hcrc : options.checksumAlgorithm = .crc32c) (h : RecordsAre Q options r.transfer.active w)
    {event : Event} (hnew : r.Records Q event) :
    RecordsAre Q options (r.receive event w).1.transfer.active (r.receive event w).2 := by
  obtain rfl := hinv.sameOptions
  rw [receive.eq_def]
  cases event with
  | accepted =>
      simp only
      split
      · exact h
      · exact h
  | header index encoded =>
      simp only
      cases r.connections[index]? with
      | none => exact h
      | some c =>
          simp only
          split
          · cases hheader : processCompletedHeader r.options c r.transfer encoded with
            | error e => exact abort_recordsAre hinv.sound h e
            | ok result =>
                obtain ⟨c', transfer'⟩ := result
                simp only [processCompletedHeader_active hheader]
                exact h
          · exact h
  | payload index bytes =>
      simp only
      cases hc : r.connections[index]? with
      | none => exact h
      | some c =>
          simp only
          split
          · rename_i hstate
            have htakes : r.takes (.payload index bytes) = some (index, c, bytes) := by
              simp only [takes, hc, if_pos hstate]
            have hstep := processCompletedPayload_step (S := ∅) r.options index c r.transfer bytes w
            have hrecords := @processCompletedPayload_recordsAre Q r.options index c r.transfer
              bytes w hcrc hinv.sound (fun a ha => hnew index c bytes a htakes ha) h
            rcases hpayload : processCompletedPayload r.options index c r.transfer bytes w
              with ⟨e | _, c', transfer', w'⟩
            · rw [hpayload] at hstep hrecords
              exact @abort_recordsAre Q { r with transfer := transfer' } r.options w'
                (hstep.sound hinv.sound) hrecords e
            · rw [hpayload] at hrecords
              exact hrecords
          · exact h
  | lost status => exact abort_recordsAre hinv.sound h _
  | proceed =>
      simp only
      cases hactive : r.transfer.active with
      | none =>
          simp only [hactive]
          rw [hactive] at h
          exact h
      | some active =>
          have hsound := hinv.sound active hactive
          rw [hactive] at h
          simp only
          split
          · split
            · exact h.quiet hsound (Set.empty_subset _)
                (.op .markFailed rfl)
            · have hquiet := checkReceived_quiet r.options active.init.totalSize.toNat
                active.session w
              rw [verify]
              rcases hresult : checkReceived r.options active.init.totalSize.toNat active.session w
                with ⟨e | _, s, w'⟩
              · rw [hresult] at hquiet
                exact h.quiet hsound (Set.empty_subset _) hquiet
              · rw [hresult] at hquiet
                exact h.quiet hsound (Set.empty_subset _) hquiet
          · rw [hactive]
            exact h

theorem rename_recordsAre (hinv : r.Invariant options) {active : ActiveTransfer}
    (hactive : r.transfer.active = some active)
    (h : RecordsAre Q options r.transfer.active w) :
    RecordsAre Q options (r.rename active w).1.transfer.active (r.rename active w).2 := by
  rw [hactive] at h
  have hsound := hinv.sound active hactive
  have hquiet := publish_quiet transferSessionFormat r.options.toCommitOptions active.session w
  rw [hinv.sameOptions] at hquiet
  rw [rename, hinv.sameOptions]
  have hown : ({active.session.manifest.tempPath, options.path} : Set Path) ⊆
      ownFiles options active.session := subset_rfl
  rcases hresult : publish transferSessionFormat options.toCommitOptions active.session w
    with ⟨e | _, s, w'⟩
  · rw [hresult] at hquiet
    exact h.quiet hsound hown hquiet
  · rw [hresult] at hquiet
    exact h.quiet hsound hown hquiet

theorem records_planned (hsound : ∀ a, r.transfer.active = some a → a.Sound options)
    (hcrc : options.checksumAlgorithm = .crc32c) (event : Event) :
    r.Records ChunkChecksumRecord.Planned event := by
  intro i c bytes active _ hactive
  apply c.records_planned
  exact (checkSessionInit_ok (hsound active hactive).checked).2.trans hcrc

/-- **A step keeps the records as they are said to be**, if what it may record
is. -/
theorem step_recordsAre (hinv : r.Invariant options) (hcrc : options.checksumAlgorithm = .crc32c)
    (h : RecordsAre Q options r.transfer.active w) {event : Event}
    (hnew : r.phase = .receiving → r.Records Q event) :
    RecordsAre Q options (r.step event w).1.transfer.active (r.step event w).2 := by
  unfold step
  cases hphase : r.phase with
  | receiving => exact receive_recordsAre hinv hcrc h (hnew hphase)
  | verified =>
      cases event with
      | proceed =>
          cases hactive : r.transfer.active with
          | none =>
              simp only [hactive]
              rw [hactive] at h
              exact h
          | some active => exact rename_recordsAre hinv hactive h
      | accepted => exact h
      | header index encoded => exact h
      | payload index bytes => exact h
      | lost status => exact h
  | committed =>
      cases event with
      | proceed =>
          exact h.frame (sendStatusToConnections_frame r.connections.length w)
            (Set.notMem_empty _)
      | accepted => exact h
      | header index encoded => exact h
      | payload index bytes => exact h
      | lost status => exact h
  | returned status => exact h

end Receiver

/-! ### Sessions and their SESSION_INITs -/

/-- The SESSION_INIT that the event brings, if it brings one, is as `Q` says. -/
def Receiver.Brings (r : Receiver) (Q : SessionInitPayload → Prop) (event : Event) : Prop :=
  ∀ i c bytes init, r.takes event = some (i, c, bytes) → c.currentHeader.type = .sessionInit →
    decodeSessionInitPayload bytes = .ok init → Q init

/-- A payload opens a session only if it is a SESSION_INIT. -/
theorem processCompletedPayload_opens {options : FileTransferOptions} {index : Nat}
    {c : FileServerConnection} {t : TransferState} {bytes : Bytes} {w : World}
    (hnone : t.active = none) {a : ActiveTransfer}
    (h : (processCompletedPayload options index c t bytes w).2.2.1.active = some a) :
    c.currentHeader.type = .sessionInit ∧ decodeSessionInitPayload bytes = .ok a.init := by
  have hnot : ∀ {t' : TransferState}, t'.active = t.active → t'.active ≠ some a := by
    intro t' hsame hsome
    rw [hsame, hnone] at hsome
    cases hsome
  rw [processCompletedPayload] at h
  split at h
  · rename_i htype
    rw [processSessionInitPayload] at h
    cases hdecode : decodeSessionInitPayload bytes with
    | error e =>
        simp only [hdecode] at h
        exact absurd h (hnot rfl)
    | ok init =>
        refine ⟨htype, ?_⟩
        have hends := initializeSession_ends options init t.active w
        rw [hnone] at hends
        simp only [hdecode, hnone] at h
        generalize initializeSession options init none w = result at h hends
        have hinit : ∀ active, result.2.1 = some active → active.init = init := by
          intro active hactive
          cases hends with
          | refused e hframe => cases hactive
          | opened hcheck hopens hprepare =>
              obtain rfl := Option.some.inj hactive
              rfl
        rcases result with ⟨e | _, _ | active, w₁⟩
        · exact absurd h (by simp)
        · rw [← hinit a h]
        · exact absurd h (by simp [hnone])
        · have hactive : some active = some a := by
            simp only at h
            cases hresponse : resumeResponse options { c with sessionReady := true } active with
            | error e =>
                simp only [hresponse] at h
                exact h
            | ok frame =>
                simp only [hresponse] at h
                rcases hsend : sendFrame w₁ with ⟨e | _, w₂⟩
                · simp only [hsend] at h
                  exact h
                · simp only [hsend] at h
                  exact h
          rw [← hinit a hactive]
  · simp only [hnone] at h
    cases h

namespace Receiver

variable {Q : SessionInitPayload → Prop} {r : Receiver}

/-- What a payload opens is as `Q` says. -/
theorem processCompletedPayload_inits {index : Nat} {c : FileServerConnection} {bytes : Bytes}
    {w : World} (h : ∀ a, r.transfer.active = some a → Q a.init)
    (hbrings : ∀ init, c.currentHeader.type = .sessionInit →
      decodeSessionInitPayload bytes = .ok init → Q init) (a : ActiveTransfer)
    (ha : (processCompletedPayload r.options index c r.transfer bytes w).2.2.1.active = some a) :
    Q a.init := by
  cases hactive : r.transfer.active with
  | none =>
      obtain ⟨htype, hdecode⟩ := processCompletedPayload_opens hactive ha
      exact hbrings a.init htype hdecode
  | some active =>
      have hstep := processCompletedPayload_step (S := ∅) r.options index c r.transfer bytes w
      rw [ha, hactive] at hstep
      cases hstep with
      | called hcalls => exact h active hactive

/-- While frames come in, only a payload opens a session. -/
theorem receive_opens (hnone : r.transfer.active = none) {event : Event} {w : World}
    {a : ActiveTransfer} (ha : (r.receive event w).1.transfer.active = some a) :
    ∃ i c bytes, r.takes event = some (i, c, bytes) ∧ c.currentHeader.type = .sessionInit ∧
      decodeSessionInitPayload bytes = .ok a.init := by
  have hkept : r.transfer.active ≠ some a := by
    rw [hnone]
    exact (Option.some_ne_none a).symm
  have habort : ∀ (e : TransferError) (w' : World), (r.abort e w').1.transfer.active ≠ some a := by
    intro e w'
    rw [(r.abort_connections e w').2.2 hnone]
    exact (Option.some_ne_none a).symm
  rw [receive.eq_def] at ha
  cases event with
  | accepted =>
      simp only at ha
      split at ha
      · exact absurd ha hkept
      · exact absurd ha hkept
  | header index encoded =>
      simp only at ha
      cases hc : r.connections[index]? with
      | none =>
          simp only [hc] at ha
          exact absurd ha hkept
      | some c =>
          simp only [hc] at ha
          split at ha
          · cases hheader : processCompletedHeader r.options c r.transfer encoded with
            | error e =>
                simp only [hheader] at ha
                exact absurd ha (habort e w)
            | ok result =>
                simp only [hheader] at ha
                rw [processCompletedHeader_active hheader] at ha
                exact absurd ha hkept
          · exact absurd ha hkept
  | payload index bytes =>
      simp only at ha
      cases hc : r.connections[index]? with
      | none =>
          simp only [hc] at ha
          exact absurd ha hkept
      | some c =>
          simp only [hc] at ha
          split at ha
          · rename_i hstate
            refine ⟨index, c, bytes, by simp only [takes, hc, if_pos hstate], ?_⟩
            have hopens := fun a =>
              @processCompletedPayload_opens r.options index c r.transfer bytes w hnone a
            rcases hresult : processCompletedPayload r.options index c r.transfer bytes w
              with ⟨e | _, c', t', w'⟩
            · rw [hresult] at hopens
              simp only [hresult] at ha
              cases ht' : t'.active with
              | none =>
                  rw [(({ r with transfer := t' } : Receiver).abort_connections e w').2.2 ht'] at ha
                  cases ha
              | some active =>
                  rw [abort] at ha
                  simp only [ht'] at ha
                  obtain rfl := Option.some.inj ha
                  exact hopens active ht'
            · rw [hresult] at hopens
              simp only [hresult] at ha
              exact hopens a ha
          · exact absurd ha hkept
  | lost status => exact absurd ha (habort _ w)
  | proceed =>
      simp only [hnone] at ha
      cases ha

/-- **What a step opens** is as `Q` says. -/
theorem step_inits (h : ∀ a, r.transfer.active = some a → Q a.init) {event : Event}
    (hbrings : r.phase = .receiving → r.Brings Q event) (w : World) :
    ∀ a, (r.step event w).1.transfer.active = some a → Q a.init := by
  intro a ha
  cases hbefore : r.transfer.active with
  | some active =>
      have hstep := r.step_session event w
      rw [ha, hbefore] at hstep
      cases hstep with
      | called hcalls => exact h active hbefore
  | none =>
      unfold step at ha
      cases hphase : r.phase with
      | receiving =>
          simp only [hphase] at ha
          obtain ⟨i, c, bytes, htakes, htype, hdecode⟩ := receive_opens hbefore ha
          exact hbrings hphase i c bytes a.init htakes htype hdecode
      | verified =>
          simp only [hphase, hbefore] at ha
          cases ha
      | committed =>
          simp only [hphase] at ha
          cases event with
          | proceed =>
              rw [complete, hbefore] at ha
              cases ha
          | _ =>
              rw [hbefore] at ha
              cases ha
      | returned status =>
          simp only [hphase] at ha
          rw [hbefore] at ha
          cases ha

end Receiver

end FileTransferServer

end GridFlux
