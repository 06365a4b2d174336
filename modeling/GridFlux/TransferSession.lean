/-
GridFlux/TransferSession.lean

`TransferSession::createNew` and `TransferSession::resume`
(`core/session/transfer_session.cpp`).
-/
import GridFlux.SessionInvariant

namespace GridFlux

open HalfOpen TextCodec

abbrev TransferSession := Session TransferPaths

def transferSessionFormat : SessionFormat TransferPaths where
  toManifestFormat := transferFormat
  saveTexts := transferSaveTexts
  manifestPathFor p := manifestPathForOutput p.outputPath
  tempPathFor p transferId := tempPathForOutput p.outputPath transferId
  saveVersion _ := kTransferManifestVersion
  algorithmMismatch := ascii "chunk checksum algorithm does not match manifest"
  rangeExceeds := ascii "chunk range exceeds transfer size"
  recordMismatch := ascii "verified chunk checksum mismatch"
  countsResent := false
  refreshesStats := false

namespace TransferSession

/-- `validateSessionInputs`. -/
def validateSessionInputs (request : SessionRequest TransferPaths) : Except Status Unit := do
  require (request.paths.outputPath ≠ []) (.invalidArgument (ascii "output path must not be empty"))
  require (isValidTransferId request.transferId) (.invalidArgument (ascii "invalid transfer_id"))
  require (request.chunkSize ≠ 0)
    (.invalidArgument (ascii "chunk_size must be greater than zero"))
  require (request.manifestFlushIntervalChunks ≠ 0)
    (.invalidArgument (ascii "manifest flush interval must be greater than zero"))

/-- `validateLoadedManifest`. -/
def validateLoadedManifest (manifest : TransferManifest)
    (request : SessionRequest TransferPaths) : Except Status Unit := do
  require (manifest.transferId = request.transferId)
    (.invalidArgument (ascii "manifest transfer_id does not match request"))
  require (manifest.paths.outputPath = request.paths.outputPath)
    (.invalidArgument (ascii "manifest output path does not match request"))
  require (manifest.tempPath = tempPathForOutput request.paths.outputPath request.transferId)
    (.invalidArgument (ascii "manifest temp path does not match transfer_id"))
  require (manifest.totalSize = request.totalSize.toNat)
    (.invalidArgument (ascii "manifest total_size does not match request"))
  require (manifest.chunkSize = request.chunkSize.toNat)
    (.invalidArgument (ascii "manifest chunk_size does not match request"))
  require (manifest.state ≠ .committed)
    (.invalidArgument (ascii "manifest is already committed"))
  require (¬(manifest.version = kTransferManifestVersionV1 ∧ request.checksumAlgorithm ≠ .none))
    (.invalidArgument (ascii "manifest version 1 lacks chunk checksum records"))
  require (¬(manifest.version = kTransferManifestVersion ∧
      manifest.checksumAlgorithm ≠ request.checksumAlgorithm))
    (.invalidArgument (ascii "manifest checksum algorithm does not match request"))

/-- `TransferSession::createNew`. -/
def createNew (request : SessionRequest TransferPaths) (w : World) : Effect TransferSession :=
  match validateSessionInputs request with
  | .error e => (.error e, w)
  | .ok _ =>
      match resolveChecksumBackend w.crc32cHardwareAvailable request.checksumAlgorithm
          request.checksumBackend with
      | .error e => (.error e, w)
      | .ok backend =>
          (.ok (Session.fresh transferSessionFormat request backend w.nowUnixNanos.1
              (if request.totalSize = 0 then 0 else 1)), w.nowUnixNanos.2)

/-- The record `resume` makes of a range of a version 1 manifest. -/
def recordOfRange (range : CompletedRange) : ChunkChecksumRecord :=
  ⟨range.begin, range.begin, range.end - range.begin, ⟨.none, 0#32⟩⟩

/-- The loops of `resume`: the range list is rebuilt from the records, which a
version 1 manifest does not have and gets from its ranges. -/
def restore (manifest : TransferManifest) (totalSize : Nat) :
    Except Status (TransferManifest × RangeList) :=
  if manifest.version = kTransferManifestVersionV1 then do
    let completed ← RangeList.empty.insertAll totalSize manifest.completedRanges
    return ({ manifest with
      verifiedChunks := manifest.verifiedChunks ++ manifest.completedRanges.map recordOfRange },
      completed)
  else do
    let completed ← RangeList.empty.insertAll totalSize (recordRanges manifest.verifiedChunks)
    return (manifest, completed)

/-- The pure part of `resume`, between the load and the clock. -/
def accept (request : SessionRequest TransferPaths) (manifest : TransferManifest) :
    Except Status (TransferManifest × RangeList) := do
  validateLoadedManifest manifest request
  restore { manifest with checksumAlgorithm := request.checksumAlgorithm }
    request.totalSize.toNat

/-- `TransferSession::resume`. -/
def resume (request : SessionRequest TransferPaths) (w : World) : Effect TransferSession :=
  match validateSessionInputs request with
  | .error e => (.error e, w)
  | .ok _ =>
      match resolveChecksumBackend w.crc32cHardwareAvailable request.checksumAlgorithm
          request.checksumBackend with
      | .error e => (.error e, w)
      | .ok backend =>
          match loadTransferManifest w (manifestPathForOutput request.paths.outputPath) with
          | (.error e, w) => (.error e, w)
          | (.ok manifest, w) =>
              match accept request manifest with
              | .error e => (.error e, w)
              | .ok (manifest, completed) =>
                  (.ok (Session.resumed transferSessionFormat request backend manifest
                      completed w.nowUnixNanos.1), w.nowUnixNanos.2)

/-- A state in which a session opens, created or resumed in any world of one
machine. -/
def Opens (hardware : Bool) (request : SessionRequest TransferPaths) (s : TransferSession) :
    Prop :=
  ∃ w w', w.crc32cHardwareAvailable = hardware ∧
    (createNew request w = (.ok s, w') ∨ resume request w = (.ok s, w'))

/-! ### Opening -/

theorem createNew_ok {request : SessionRequest TransferPaths} {w w' : World}
    {s : TransferSession} (h : createNew request w = (.ok s, w')) :
    ∃ backend now missing, now < 2 ^ 64 ∧
      resolveChecksumBackend w.crc32cHardwareAvailable request.checksumAlgorithm
        request.checksumBackend = .ok backend ∧
      s = Session.fresh transferSessionFormat request backend now missing := by
  rw [createNew] at h
  cases hvalid : validateSessionInputs request with
  | error e => simp [hvalid] at h
  | ok _ =>
      cases hbackend : resolveChecksumBackend w.crc32cHardwareAvailable
          request.checksumAlgorithm request.checksumBackend with
      | error e => simp [hvalid, hbackend] at h
      | ok backend =>
          simp only [hvalid, hbackend, Prod.mk.injEq, Except.ok.injEq] at h
          exact ⟨backend, _, _, w.nowUnixNanos_lt, rfl, h.1.symm⟩

theorem resume_ok {request : SessionRequest TransferPaths} {w w' : World}
    {s : TransferSession} (h : resume request w = (.ok s, w')) :
    ∃ backend now text manifest manifest' completed, now < 2 ^ 64 ∧
      resolveChecksumBackend w.crc32cHardwareAvailable request.checksumAlgorithm
        request.checksumBackend = .ok backend ∧
      w.files (manifestPathForOutput request.paths.outputPath) = some text ∧
      parseTransferManifest text = .ok manifest ∧
      accept request manifest = .ok (manifest', completed) ∧
      s = Session.resumed transferSessionFormat request backend manifest' completed now := by
  rw [resume] at h
  cases hvalid : validateSessionInputs request with
  | error e => simp [hvalid] at h
  | ok _ =>
      cases hbackend : resolveChecksumBackend w.crc32cHardwareAvailable
          request.checksumAlgorithm request.checksumBackend with
      | error e => simp [hvalid, hbackend] at h
      | ok backend =>
          rcases hload : loadTransferManifest w
            (manifestPathForOutput request.paths.outputPath) with ⟨e | manifest, w₁⟩
          · simp [hvalid, hbackend, hload] at h
          · obtain ⟨text, hfile, hparse⟩ := loadTransferManifest_ok hload
            cases haccept : accept request manifest with
            | error e => simp [hvalid, hbackend, hload, haccept] at h
            | ok accepted =>
                simp only [hvalid, hbackend, hload, haccept, Prod.mk.injEq,
                  Except.ok.injEq] at h
                exact ⟨backend, _, text, manifest, accepted.1, accepted.2, w₁.nowUnixNanos_lt,
                  rfl, hfile, hparse, haccept, h.1.symm⟩

/-- Opening a session changes no file. -/
theorem createNew_frame {request : SessionRequest TransferPaths} {w w' : World}
    {result : Except Status TransferSession} (h : createNew request w = (result, w')) :
    World.Frame ∅ w w' := by
  rw [createNew] at h
  cases hvalid : validateSessionInputs request with
  | error e =>
      simp only [hvalid, Prod.mk.injEq] at h
      rw [← h.2]
      exact World.Frame.refl w
  | ok _ =>
      cases hbackend : resolveChecksumBackend w.crc32cHardwareAvailable
          request.checksumAlgorithm request.checksumBackend with
      | error e =>
          simp only [hvalid, hbackend, Prod.mk.injEq] at h
          rw [← h.2]
          exact World.Frame.refl w
      | ok backend =>
          simp only [hvalid, hbackend, Prod.mk.injEq] at h
          rw [← h.2]
          exact World.Frame.nowUnixNanos ∅ w

theorem resume_frame {request : SessionRequest TransferPaths} {w w' : World}
    {result : Except Status TransferSession} (h : resume request w = (result, w')) :
    World.Frame ∅ w w' := by
  rw [resume] at h
  cases hvalid : validateSessionInputs request with
  | error e =>
      simp only [hvalid, Prod.mk.injEq] at h
      rw [← h.2]
      exact World.Frame.refl w
  | ok _ =>
      cases hbackend : resolveChecksumBackend w.crc32cHardwareAvailable
          request.checksumAlgorithm request.checksumBackend with
      | error e =>
          simp only [hvalid, hbackend, Prod.mk.injEq] at h
          rw [← h.2]
          exact World.Frame.refl w
      | ok backend =>
          have hframe := loadTransferManifest_frame w
            (manifestPathForOutput request.paths.outputPath)
          rcases hload : loadTransferManifest w
            (manifestPathForOutput request.paths.outputPath) with ⟨e | manifest, w₁⟩
          · rw [hload] at hframe
            simp only [hvalid, hbackend, hload, Prod.mk.injEq] at h
            rw [← h.2]
            exact hframe
          · rw [hload] at hframe
            cases haccept : accept request manifest with
            | error e =>
                simp only [hvalid, hbackend, hload, haccept, Prod.mk.injEq] at h
                rw [← h.2]
                exact hframe
            | ok accepted =>
                simp only [hvalid, hbackend, hload, haccept, Prod.mk.injEq] at h
                rw [← h.2]
                exact hframe.trans (World.Frame.nowUnixNanos ∅ w₁)

theorem validateLoadedManifest_eq_ok {manifest : TransferManifest}
    {request : SessionRequest TransferPaths} {u : Unit} :
    validateLoadedManifest manifest request = .ok u ↔
      manifest.transferId = request.transferId ∧
      manifest.paths.outputPath = request.paths.outputPath ∧
      manifest.tempPath = tempPathForOutput request.paths.outputPath request.transferId ∧
      manifest.totalSize = request.totalSize.toNat ∧
      manifest.chunkSize = request.chunkSize.toNat ∧
      manifest.state ≠ .committed ∧
      ¬(manifest.version = kTransferManifestVersionV1 ∧ request.checksumAlgorithm ≠ .none) ∧
      ¬(manifest.version = kTransferManifestVersion ∧
        manifest.checksumAlgorithm ≠ request.checksumAlgorithm) := by
  simp [validateLoadedManifest, bind_eq_ok]

theorem recordRanges_map_recordOfRange {ranges : List CompletedRange} (h : Canonical ranges) :
    recordRanges (ranges.map recordOfRange) = ranges := by
  rw [recordRanges, List.map_map]
  refine (List.map_congr_left fun r hr => ?_).trans (List.map_id ranges)
  have hne := h.nonempty r hr
  show (⟨r.begin, r.begin + (r.end - r.begin)⟩ : CompletedRange) = r
  rw [Nat.add_sub_cancel' hne.le]

theorem recordsSorted_map_recordOfRange {ranges : List CompletedRange} (h : Canonical ranges) :
    RecordsSorted (ranges.map recordOfRange) := by
  refine List.pairwise_map.mpr (h.gapped.imp_of_mem fun ha hb hab => Or.inl ?_)
  exact (h.nonempty _ ha).trans hab

/-- What `resume` makes of a parsed manifest: records from which the range list
has been rebuilt, sorted, and ranges that are the rebuilt ones. -/
theorem accept_ok {request : SessionRequest TransferPaths} {text : Bytes}
    {manifest manifest' : TransferManifest} {completed : RangeList}
    (hparse : parseTransferManifest text = .ok manifest)
    (h : accept request manifest = .ok (manifest', completed)) :
    manifest'.Fits ∧ manifest'.transferId = request.transferId ∧
      manifest'.paths = request.paths ∧
      manifest'.tempPath = tempPathForOutput request.paths.outputPath request.transferId ∧
      manifest'.totalSize = request.totalSize.toNat ∧
      manifest'.chunkSize = request.chunkSize.toNat ∧
      manifest'.checksumAlgorithm = request.checksumAlgorithm ∧
      (∀ r ∈ manifest'.verifiedChunks, r.checksum.algorithm = manifest'.checksumAlgorithm) ∧
      RangeList.empty.insertAll manifest'.totalSize (recordRanges manifest'.verifiedChunks) =
        .ok completed ∧
      RecordsSorted manifest'.verifiedChunks ∧ manifest'.completedRanges = completed.ranges := by
  obtain ⟨hfits, -, hversion⟩ := parseTransferManifest_spec hparse
  simp only [accept, bind_eq_ok] at h
  obtain ⟨_, hvalid, hrestore⟩ := h
  obtain ⟨hid, hout, htemp, htotal, hchunk, -, hv1, hv2⟩ :=
    validateLoadedManifest_eq_ok.mp hvalid
  have hpaths : manifest.paths = request.paths := congrArg TransferPaths.mk hout
  rcases hversion with ⟨hv, halg, hnil, hcanonical, hbounded⟩ | ⟨hv, hsorted, hok⟩
  · -- version 1: the records come from the ranges
    have hnone : request.checksumAlgorithm = .none := by
      by_contra hne
      exact hv1 ⟨hv, hne⟩
    simp only [restore, if_pos hv, bind_eq_ok, hnil, List.nil_append] at hrestore
    obtain ⟨_, hinsert, heq⟩ := hrestore
    obtain ⟨rfl, rfl⟩ := Prod.mk.inj (Except.ok.inj heq)
    rw [← htotal, ← recordRanges_map_recordOfRange hcanonical] at hinsert
    refine ⟨⟨hfits.totalSize, hfits.chunkSize, hfits.createdAt, hfits.updatedAt, ?_⟩, hid, hpaths,
      htemp, htotal, hchunk, rfl, ?_, hinsert, recordsSorted_map_recordOfRange hcanonical, ?_⟩
    · intro r hr
      obtain ⟨range, hrange, rfl⟩ := List.mem_map.mp hr
      have hne := hcanonical.nonempty range hrange
      have hle := hbounded range hrange
      have hu := hfits.totalSize
      show range.begin < 2 ^ 64
      omega
    · intro r hr
      obtain ⟨range, -, rfl⟩ := List.mem_map.mp hr
      exact hnone.symm
    · obtain ⟨-, hder⟩ := insertAll_records hinsert
      refine hcanonical.eq_of_covered_eq hder.wellFormed.canonical ?_
      rw [hder.covered_eq, recordRanges_map_recordOfRange hcanonical]
  · -- version 2: the records are those of the manifest
    have hne : ¬manifest.version = kTransferManifestVersionV1 := by
      rw [hv]
      decide
    have halg : manifest.checksumAlgorithm = request.checksumAlgorithm := by
      by_contra hne
      exact hv2 ⟨hv, hne⟩
    simp only [restore, if_neg hne, bind_eq_ok] at hrestore
    obtain ⟨_, hinsert, heq⟩ := hrestore
    obtain ⟨rfl, rfl⟩ := Prod.mk.inj (Except.ok.inj heq)
    rw [← htotal] at hinsert
    refine ⟨⟨hfits.totalSize, hfits.chunkSize, hfits.createdAt, hfits.updatedAt, hfits.chunkIds⟩,
      hid, hpaths, htemp, htotal, hchunk, rfl, ?_, hinsert, hsorted, ?_⟩
    · exact fun r hr => (hok.algorithms r hr).trans halg
    · obtain ⟨-, hder⟩ := insertAll_records hinsert
      exact hok.canonical.eq_of_covered_eq hder.wellFormed.canonical
        (hok.covered_eq.trans hder.covered_eq.symm)

/-- Only a request with valid inputs opens a session. -/
theorem Opens.valid {hardware : Bool} {request : SessionRequest TransferPaths}
    {s : TransferSession} (h : Opens hardware request s) : validateSessionInputs request = .ok () := by
  obtain ⟨w, w', -, hcreate | hresume⟩ := h
  · rw [createNew] at hcreate
    cases hvalid : validateSessionInputs request with
    | error e => simp [hvalid] at hcreate
    | ok _ => rfl
  · rw [resume] at hresume
    cases hvalid : validateSessionInputs request with
    | error e => simp [hvalid] at hresume
    | ok _ => rfl

/-- **A session opens sound**, and its records are sorted. -/
theorem Opens.sound {hardware : Bool} {request : SessionRequest TransferPaths}
    {s : TransferSession} (h : Opens hardware request s) :
    s.Sound transferSessionFormat hardware request ∧ RecordsSorted s.records := by
  obtain ⟨w, w', rfl, hcreate | hresume⟩ := h
  · obtain ⟨backend, now, missing, hnow, hbackend, rfl⟩ := createNew_ok hcreate
    exact ⟨Session.fresh_sound hbackend hnow missing, List.Pairwise.nil⟩
  · obtain ⟨backend, now, text, manifest, manifest', completed, hnow, hbackend, -, hparse, haccept,
      rfl⟩ := resume_ok hresume
    obtain ⟨hfits, hid, hpaths, htemp, htotal, hchunk, halg, halgs, hinsert, hsorted, hranges⟩ :=
      accept_ok hparse haccept
    exact ⟨Session.resumed_sound hbackend hnow hfits hid hpaths htemp htotal hchunk halg halgs
      hinsert hranges, hsorted⟩

/-- A manifest of the current version gives its records as they are. -/
theorem accept_current {request : SessionRequest TransferPaths}
    {manifest manifest' : TransferManifest} {completed : RangeList}
    (hne : manifest.version ≠ kTransferManifestVersionV1)
    (h : accept request manifest = .ok (manifest', completed)) :
    manifest'.verifiedChunks = manifest.verifiedChunks ∧
      manifest'.chunkSize = manifest.chunkSize ∧ manifest'.totalSize = manifest.totalSize ∧
      manifest'.tempPath = manifest.tempPath := by
  simp only [accept, bind_eq_ok] at h
  obtain ⟨_, -, hrestore⟩ := h
  simp only [restore, if_neg hne, bind_eq_ok] at hrestore
  obtain ⟨_, -, heq⟩ := hrestore
  obtain ⟨rfl, -⟩ := Prod.mk.inj (Except.ok.inj heq)
  exact ⟨rfl, rfl, rfl, rfl⟩

/-- A transfer with checksums takes the records of the manifest as they are. -/
theorem accept_records {request : SessionRequest TransferPaths}
    {manifest manifest' : TransferManifest} {completed : RangeList}
    (hcrc : request.checksumAlgorithm = .crc32c)
    (h : accept request manifest = .ok (manifest', completed)) :
    manifest'.verifiedChunks = manifest.verifiedChunks ∧
      manifest'.chunkSize = manifest.chunkSize ∧ manifest'.totalSize = manifest.totalSize ∧
      manifest'.tempPath = manifest.tempPath := by
  refine accept_current (fun hv => ?_) h
  simp only [accept, bind_eq_ok] at h
  obtain ⟨_, hvalid, -⟩ := h
  obtain ⟨-, -, -, -, -, -, hv1, -⟩ := validateLoadedManifest_eq_ok.mp hvalid
  refine hv1 ⟨hv, ?_⟩
  rw [hcrc]
  decide

/-- Where the records of a resumed session come from. -/
theorem resume_records {request : SessionRequest TransferPaths} {w w' : World}
    {s : TransferSession} (hcrc : request.checksumAlgorithm = .crc32c)
    (h : resume request w = (.ok s, w')) :
    ∃ text manifest, w.files (manifestPathForOutput request.paths.outputPath) = some text ∧
      parseTransferManifest text = .ok manifest ∧ s.records = manifest.verifiedChunks ∧
      s.manifest.chunkSize = manifest.chunkSize ∧ s.manifest.totalSize = manifest.totalSize ∧
      s.manifest.tempPath = manifest.tempPath := by
  obtain ⟨backend, now, text, manifest, manifest', completed, -, -, htext, hparse, haccept,
    rfl⟩ := resume_ok h
  obtain ⟨hrecords, hchunk, htotal, htemp⟩ := accept_records hcrc haccept
  exact ⟨text, manifest, htext, hparse, hrecords, hchunk, htotal, htemp⟩

end TransferSession

end GridFlux
