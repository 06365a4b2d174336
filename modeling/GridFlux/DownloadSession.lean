/-
GridFlux/DownloadSession.lean

`DownloadSession::createNew` and `DownloadSession::resume`
(`core/session/download_session.cpp`).
-/
import GridFlux.SessionInvariant

namespace GridFlux

open HalfOpen TextCodec

abbrev DownloadSession := Session DownloadPaths

def downloadSessionFormat : SessionFormat DownloadPaths where
  toManifestFormat := downloadFormat
  saveTexts := downloadSaveTexts
  manifestPathFor p := downloadManifestPathForOutput p.targetPath
  tempPathFor p transferId := downloadTempPathForOutput p.targetPath transferId
  saveVersion version := version
  algorithmMismatch := ascii "download chunk checksum algorithm does not match manifest"
  rangeExceeds := ascii "download chunk range exceeds transfer size"
  recordMismatch := ascii "download verified chunk checksum mismatch"
  countsResent := true
  refreshesStats := true

namespace DownloadSession

/-- `validateInputs`. -/
def validateInputs (request : SessionRequest DownloadPaths) : Except Status Unit := do
  require (request.paths.targetPath ≠ []) (.invalidArgument (ascii "target path must not be empty"))
  require (request.paths.sourcePath ≠ []) (.invalidArgument (ascii "source path must not be empty"))
  require (isValidTransferId request.transferId) (.invalidArgument (ascii "invalid transfer_id"))
  require (request.chunkSize ≠ 0)
    (.invalidArgument (ascii "chunk_size must be greater than zero"))
  require (request.manifestFlushIntervalChunks ≠ 0)
    (.invalidArgument (ascii "manifest flush interval must be greater than zero"))

/-- `validateLoadedManifest`. -/
def validateLoadedManifest (manifest : DownloadManifest)
    (request : SessionRequest DownloadPaths) : Except Status Unit := do
  require (manifest.transferId = request.transferId)
    (.invalidArgument (ascii "download manifest transfer_id mismatch"))
  require (manifest.paths.targetPath = request.paths.targetPath)
    (.invalidArgument (ascii "download manifest target path mismatch"))
  require (manifest.paths.sourcePath = request.paths.sourcePath)
    (.invalidArgument (ascii "download manifest source path mismatch"))
  require (manifest.tempPath =
      downloadTempPathForOutput request.paths.targetPath request.transferId)
    (.invalidArgument (ascii "download manifest temp path mismatch"))
  require (manifest.totalSize = request.totalSize.toNat)
    (.invalidArgument (ascii "download manifest total_size mismatch"))
  require (manifest.chunkSize = request.chunkSize.toNat)
    (.invalidArgument (ascii "download manifest chunk_size mismatch"))
  require (manifest.checksumAlgorithm = request.checksumAlgorithm)
    (.invalidArgument (ascii "download manifest checksum algorithm mismatch"))
  require (manifest.state ≠ .committed)
    (.invalidArgument (ascii "download manifest is already committed"))

/-- `DownloadSession::createNew`. -/
def createNew (request : SessionRequest DownloadPaths) (w : World) : Effect DownloadSession :=
  match validateInputs request with
  | .error e => (.error e, w)
  | .ok _ =>
      match resolveChecksumBackend w.crc32cHardwareAvailable request.checksumAlgorithm
          request.checksumBackend with
      | .error e => (.error e, w)
      | .ok backend =>
          (.ok (Session.fresh downloadSessionFormat request backend w.nowUnixNanos.1
              (RangeList.empty.missingRanges request.totalSize.toNat).length), w.nowUnixNanos.2)

/-- The loop of `resume`: the range list is rebuilt from the records. -/
def restore (manifest : DownloadManifest) (totalSize : Nat) : Except Status RangeList :=
  RangeList.empty.insertAll totalSize (recordRanges manifest.verifiedChunks)

/-- The pure part of `resume`, between the load and the clock. -/
def accept (request : SessionRequest DownloadPaths) (manifest : DownloadManifest) :
    Except Status RangeList := do
  validateLoadedManifest manifest request
  restore manifest request.totalSize.toNat

/-- `DownloadSession::resume`. -/
def resume (request : SessionRequest DownloadPaths) (w : World) : Effect DownloadSession :=
  match validateInputs request with
  | .error e => (.error e, w)
  | .ok _ =>
      match resolveChecksumBackend w.crc32cHardwareAvailable request.checksumAlgorithm
          request.checksumBackend with
      | .error e => (.error e, w)
      | .ok backend =>
          match loadDownloadManifest w
              (downloadManifestPathForOutput request.paths.targetPath) with
          | (.error e, w) => (.error e, w)
          | (.ok manifest, w) =>
              match accept request manifest with
              | .error e => (.error e, w)
              | .ok completed =>
                  (.ok (Session.resumed downloadSessionFormat request backend manifest
                      completed w.nowUnixNanos.1), w.nowUnixNanos.2)

/-- A state in which a session opens, created or resumed in any world of one
machine. -/
def Opens (hardware : Bool) (request : SessionRequest DownloadPaths) (s : DownloadSession) :
    Prop :=
  ∃ w w', w.crc32cHardwareAvailable = hardware ∧
    (createNew request w = (.ok s, w') ∨ resume request w = (.ok s, w'))

/-! ### Opening -/

theorem createNew_ok {request : SessionRequest DownloadPaths} {w w' : World}
    {s : DownloadSession} (h : createNew request w = (.ok s, w')) :
    ∃ backend now missing, now < 2 ^ 64 ∧
      resolveChecksumBackend w.crc32cHardwareAvailable request.checksumAlgorithm
        request.checksumBackend = .ok backend ∧
      s = Session.fresh downloadSessionFormat request backend now missing := by
  rw [createNew] at h
  cases hvalid : validateInputs request with
  | error e => simp [hvalid] at h
  | ok _ =>
      cases hbackend : resolveChecksumBackend w.crc32cHardwareAvailable
          request.checksumAlgorithm request.checksumBackend with
      | error e => simp [hvalid, hbackend] at h
      | ok backend =>
          simp only [hvalid, hbackend, Prod.mk.injEq, Except.ok.injEq] at h
          exact ⟨backend, _, _, w.nowUnixNanos_lt, rfl, h.1.symm⟩

theorem resume_ok {request : SessionRequest DownloadPaths} {w w' : World}
    {s : DownloadSession} (h : resume request w = (.ok s, w')) :
    ∃ backend now text manifest completed, now < 2 ^ 64 ∧
      resolveChecksumBackend w.crc32cHardwareAvailable request.checksumAlgorithm
        request.checksumBackend = .ok backend ∧
      w.files (downloadManifestPathForOutput request.paths.targetPath) = some text ∧
      parseDownloadManifest text = .ok manifest ∧
      accept request manifest = .ok completed ∧
      s = Session.resumed downloadSessionFormat request backend manifest completed now := by
  rw [resume] at h
  cases hvalid : validateInputs request with
  | error e => simp [hvalid] at h
  | ok _ =>
      cases hbackend : resolveChecksumBackend w.crc32cHardwareAvailable
          request.checksumAlgorithm request.checksumBackend with
      | error e => simp [hvalid, hbackend] at h
      | ok backend =>
          rcases hload : loadDownloadManifest w
            (downloadManifestPathForOutput request.paths.targetPath) with ⟨e | manifest, w₁⟩
          · simp [hvalid, hbackend, hload] at h
          · obtain ⟨text, hfile, hparse⟩ := loadDownloadManifest_ok hload
            cases haccept : accept request manifest with
            | error e => simp [hvalid, hbackend, hload, haccept] at h
            | ok completed =>
                simp only [hvalid, hbackend, hload, haccept, Prod.mk.injEq,
                  Except.ok.injEq] at h
                exact ⟨backend, _, text, manifest, completed, w₁.nowUnixNanos_lt, rfl, hfile,
                  hparse, haccept, h.1.symm⟩

/-- Opening a session changes no file. -/
theorem createNew_frame {request : SessionRequest DownloadPaths} {w w' : World}
    {result : Except Status DownloadSession} (h : createNew request w = (result, w')) :
    World.Frame ∅ w w' := by
  rw [createNew] at h
  cases hvalid : validateInputs request with
  | error e =>
      simp only [hvalid, Prod.mk.injEq] at h
      rw [← h.2]
      exact World.Frame.refl w
  | ok _ =>
      cases hbackend : resolveChecksumBackend w.crc32cHardwareAvailable
          request.checksumAlgorithm request.checksumBackend with
      | error e =>
          simp only [hvalid, hbackend, Prod.mk.injEq] at h
          rw [← h.2]
          exact World.Frame.refl w
      | ok backend =>
          simp only [hvalid, hbackend, Prod.mk.injEq] at h
          rw [← h.2]
          exact World.Frame.nowUnixNanos ∅ w

theorem resume_frame {request : SessionRequest DownloadPaths} {w w' : World}
    {result : Except Status DownloadSession} (h : resume request w = (result, w')) :
    World.Frame ∅ w w' := by
  rw [resume] at h
  cases hvalid : validateInputs request with
  | error e =>
      simp only [hvalid, Prod.mk.injEq] at h
      rw [← h.2]
      exact World.Frame.refl w
  | ok _ =>
      cases hbackend : resolveChecksumBackend w.crc32cHardwareAvailable
          request.checksumAlgorithm request.checksumBackend with
      | error e =>
          simp only [hvalid, hbackend, Prod.mk.injEq] at h
          rw [← h.2]
          exact World.Frame.refl w
      | ok backend =>
          have hframe := loadDownloadManifest_frame w
            (downloadManifestPathForOutput request.paths.targetPath)
          rcases hload : loadDownloadManifest w
            (downloadManifestPathForOutput request.paths.targetPath) with ⟨e | manifest, w₁⟩
          · rw [hload] at hframe
            simp only [hvalid, hbackend, hload, Prod.mk.injEq] at h
            rw [← h.2]
            exact hframe
          · rw [hload] at hframe
            cases haccept : accept request manifest with
            | error e =>
                simp only [hvalid, hbackend, hload, haccept, Prod.mk.injEq] at h
                rw [← h.2]
                exact hframe
            | ok completed =>
                simp only [hvalid, hbackend, hload, haccept, Prod.mk.injEq] at h
                rw [← h.2]
                exact hframe.trans (World.Frame.nowUnixNanos ∅ w₁)

theorem validateLoadedManifest_eq_ok {manifest : DownloadManifest}
    {request : SessionRequest DownloadPaths} {u : Unit} :
    validateLoadedManifest manifest request = .ok u ↔
      manifest.transferId = request.transferId ∧
      manifest.paths.targetPath = request.paths.targetPath ∧
      manifest.paths.sourcePath = request.paths.sourcePath ∧
      manifest.tempPath =
        downloadTempPathForOutput request.paths.targetPath request.transferId ∧
      manifest.totalSize = request.totalSize.toNat ∧
      manifest.chunkSize = request.chunkSize.toNat ∧
      manifest.checksumAlgorithm = request.checksumAlgorithm ∧
      manifest.state ≠ .committed := by
  simp [validateLoadedManifest, bind_eq_ok]

/-- Only a request with valid inputs opens a session. -/
theorem Opens.valid {hardware : Bool} {request : SessionRequest DownloadPaths}
    {s : DownloadSession} (h : Opens hardware request s) : validateInputs request = .ok () := by
  obtain ⟨w, w', -, hcreate | hresume⟩ := h
  · rw [createNew] at hcreate
    cases hvalid : validateInputs request with
    | error e => simp [hvalid] at hcreate
    | ok _ => rfl
  · rw [resume] at hresume
    cases hvalid : validateInputs request with
    | error e => simp [hvalid] at hresume
    | ok _ => rfl

/-- **A session opens sound**, and its records are sorted. -/
theorem Opens.sound {hardware : Bool} {request : SessionRequest DownloadPaths}
    {s : DownloadSession} (h : Opens hardware request s) :
    s.Sound downloadSessionFormat hardware request ∧ RecordsSorted s.records := by
  obtain ⟨w, w', rfl, hcreate | hresume⟩ := h
  · obtain ⟨backend, now, missing, hnow, hbackend, rfl⟩ := createNew_ok hcreate
    exact ⟨Session.fresh_sound hbackend hnow missing, List.Pairwise.nil⟩
  · obtain ⟨backend, now, text, manifest, completed, hnow, hbackend, -, hparse, haccept, rfl⟩ :=
      resume_ok hresume
    obtain ⟨hfits, -, -, hsorted, hok⟩ := parseDownloadManifest_spec hparse
    simp only [accept, bind_eq_ok] at haccept
    obtain ⟨_, hvalid, hinsert⟩ := haccept
    obtain ⟨hid, htarget, hsource, htemp, htotal, hchunk, halg, -⟩ :=
      validateLoadedManifest_eq_ok.mp hvalid
    have hpaths : manifest.paths = request.paths := congrArg₂ DownloadPaths.mk hsource htarget
    rw [restore, ← htotal] at hinsert
    refine ⟨Session.resumed_sound hbackend hnow hfits hid hpaths htemp htotal hchunk halg
      hok.algorithms hinsert ?_, hsorted⟩
    obtain ⟨-, hder⟩ := insertAll_records hinsert
    exact hok.canonical.eq_of_covered_eq hder.wellFormed.canonical
      (hok.covered_eq.trans hder.covered_eq.symm)

end DownloadSession

end GridFlux
