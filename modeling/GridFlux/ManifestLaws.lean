/-
GridFlux/ManifestLaws.lean

What holds between the manifest texts and the manifests.

* A serialized manifest parses to itself, its records sorted and its ranges the
  union of the records (`manifest_roundTrip`).
* An accepted text gives ranges and records that fit together, so that the
  loops of `resume` cannot fail on it (`parser_sound`).
* A version 1 manifest that is resumed and saved becomes a version 2 manifest
  with the same progress (`v1_migration`).
-/
import GridFlux.SessionDisk

namespace GridFlux

open HalfOpen TextCodec

/-! ### Round trip -/

/-- The manifest a text of `manifest` reads back as, when `ranges` are the ones
its records cover. -/
def Manifest.normalized {P : Type} (manifest : Manifest P) (ranges : List CompletedRange) :
    Manifest P :=
  { manifest with
    completedRanges := ranges, verifiedChunks := sortedRecords manifest.verifiedChunks }

/-- The ranges are the union of the ranges of the records, in canonical form. -/
structure UnionOf (ranges : List CompletedRange) (records : List ChunkChecksumRecord) : Prop where
  canonical : Canonical ranges
  covered_eq : covered ranges = covered (recordRanges records)

theorem sortedRecords_sortedRecords (records : List ChunkChecksumRecord) :
    sortedRecords (sortedRecords records) = sortedRecords records :=
  sortedRecords_eq (recordsSorted_sortedRecords records)

/-- What the plain serializer has written, once it accepts. -/
theorem serializeManifest_ok {P : Type} {format : ManifestFormat P} {manifest : Manifest P}
    {text : Bytes} (h : serializeManifest format manifest = .ok text) :
    checkSerializable format manifest = .ok () ∧
      ∃ completed, completedFromVerified manifest.verifiedChunks manifest.totalSize =
          .ok completed ∧
        text = withBodyChecksum (buildManifestBody format
          (manifest.normalized completed.ranges) completed.ranges) := by
  simp only [serializeManifest, bind_eq_ok] at h
  obtain ⟨_, hcheck, completed, hcompleted, htext⟩ := h
  refine ⟨hcheck, completed, ?_, (Except.ok.inj htext).symm⟩
  rw [completedFromVerified, sortedRecords_sortedRecords] at hcompleted
  exact hcompleted

/-- The normalized manifest is consistent. -/
theorem manifestOk_normalized {P : Type} {manifest : Manifest P} {completed : RangeList}
    (halgorithms : ∀ r ∈ manifest.verifiedChunks,
      r.checksum.algorithm = manifest.checksumAlgorithm)
    (h : completedFromVerified manifest.verifiedChunks manifest.totalSize = .ok completed) :
    ManifestOk (manifest.normalized completed.ranges) completed.ranges ∧
      UnionOf completed.ranges manifest.verifiedChunks := by
  obtain ⟨hok, hder⟩ := completedFromVerified_spec h
  have hperm := sortedRecords_perm manifest.verifiedChunks
  refine ⟨⟨hok.perm hperm.symm, fun r hr => halgorithms r (hperm.mem_iff.mp hr),
    hder.wellFormed.canonical, (hder.perm hperm.symm).covered_eq⟩,
    hder.wellFormed.canonical, hder.covered_eq⟩

theorem Manifest.Fits.normalized {P : Type} {manifest : Manifest P} (h : manifest.Fits)
    (ranges : List CompletedRange) : (manifest.normalized ranges).Fits :=
  ⟨h.totalSize, h.chunkSize, h.createdAt, h.updatedAt, fun r hr =>
    h.chunkIds r ((sortedRecords_perm _).mem_iff.mp hr)⟩

/-- Whichever format: a parser that inverts the writing of consistent manifests
returns the normalized manifest. -/
theorem parse_serializeManifest {P : Type} {format : SessionFormat P}
    {parse : Bytes → Except Status (Manifest P)} (hread : ReadsBack format parse)
    {manifest : Manifest P} {text : Bytes} (hfits : manifest.Fits)
    (halgorithms : ∀ r ∈ manifest.verifiedChunks,
      r.checksum.algorithm = manifest.checksumAlgorithm)
    (h : serializeManifest format.toManifestFormat manifest = .ok text) :
    ∃ ranges, UnionOf ranges manifest.verifiedChunks ∧
      parse text = .ok (manifest.normalized ranges) := by
  obtain ⟨hcheck, completed, hcompleted, rfl⟩ := serializeManifest_ok h
  obtain ⟨hok, hunion⟩ := manifestOk_normalized halgorithms hcompleted
  have hcheck' : checkSerializable format.toManifestFormat
      (manifest.normalized completed.ranges) = .ok () :=
    (checkSerializable_eq_ok _).mpr ((checkSerializable_eq_ok _).mp hcheck)
  refine ⟨completed.ranges, hunion, (hread _ hcheck' (hfits.normalized _) hok).trans ?_⟩
  rw [Manifest.normalized]
  dsimp only
  rw [sortedRecords_sortedRecords]

/-- **A serialized manifest parses to itself**, up to the order of its records
and the ranges derived from them. -/
theorem manifest_roundTrip :
    (∀ (manifest : TransferManifest) (text : Bytes), manifest.Fits →
      (∀ r ∈ manifest.verifiedChunks, r.checksum.algorithm = manifest.checksumAlgorithm) →
      serializeTransferManifest manifest = .ok text →
      ∃ ranges, UnionOf ranges manifest.verifiedChunks ∧
        parseTransferManifest text = .ok (manifest.normalized ranges)) ∧
    (∀ (manifest : DownloadManifest) (text : Bytes), manifest.Fits →
      (∀ r ∈ manifest.verifiedChunks, r.checksum.algorithm = manifest.checksumAlgorithm) →
      serializeDownloadManifest manifest = .ok text →
      ∃ ranges, UnionOf ranges manifest.verifiedChunks ∧
        parseDownloadManifest text = .ok (manifest.normalized ranges)) :=
  ⟨fun _ _ hfits halgorithms h => parse_serializeManifest transfer_readsBack hfits halgorithms h,
    fun _ _ hfits halgorithms h => parse_serializeManifest download_readsBack hfits halgorithms h⟩

/-- Two chunks of one byte, recorded the second one first. -/
def twoChunkManifest : TransferManifest where
  version := kTransferManifestVersion
  transferId := ascii "t"
  paths := ⟨ascii "o"⟩
  tempPath := ascii "o.part.t"
  totalSize := 3
  chunkSize := 1
  checksumAlgorithm := .crc32c
  createdAtUnixNanos := 0
  updatedAtUnixNanos := 0
  state := .transferring
  completedRanges := []
  verifiedChunks := [⟨2, 2, 1, ⟨.crc32c, 0#32⟩⟩, ⟨0, 0, 1, ⟨.crc32c, 1#32⟩⟩]

theorem manifest_roundTrip_of_two_chunks :
    ∃ text ranges, serializeTransferManifest twoChunkManifest = .ok text ∧
      UnionOf ranges twoChunkManifest.verifiedChunks ∧
      parseTransferManifest text = .ok (twoChunkManifest.normalized ranges) := by
  have hok : (serializeTransferManifest twoChunkManifest).isOk = true := by decide +kernel
  rcases h : serializeTransferManifest twoChunkManifest with e | text
  · rw [h] at hok
    cases hok
  · obtain ⟨ranges, hunion, hparse⟩ := manifest_roundTrip.1 twoChunkManifest text
      ⟨by decide, by decide, by decide, by decide, by decide⟩ (by decide) h
    exact ⟨text, ranges, rfl, hunion, hparse⟩

/-! ### What a parser accepts -/

/-- The declared ranges are canonical and inside the transfer. -/
structure RangesSound {P : Type} (manifest : Manifest P) : Prop where
  canonical : Canonical manifest.completedRanges
  bounded : ∀ r ∈ manifest.completedRanges, r.end ≤ manifest.totalSize

/-- The records are sorted, can stand together, and their union is what the
manifest declares. -/
structure RecordsSound {P : Type} (manifest : Manifest P) : Prop where
  sorted : RecordsSorted manifest.verifiedChunks
  ok : RecordsOk manifest.verifiedChunks manifest.totalSize
  union : UnionOf manifest.completedRanges manifest.verifiedChunks

theorem ManifestOk.recordsSound {P : Type} {manifest : Manifest P}
    (h : ManifestOk manifest manifest.completedRanges)
    (hsorted : RecordsSorted manifest.verifiedChunks) : RecordsSound manifest :=
  ⟨hsorted, h.records, h.canonical, h.covered_eq⟩

/-- Inserting the ranges of a sound manifest rebuilds exactly them. -/
theorem RangesSound.insertAll {P : Type} {manifest : Manifest P} (h : RangesSound manifest) :
    ∃ completed, RangeList.empty.insertAll manifest.totalSize manifest.completedRanges =
        .ok completed ∧ completed.ranges = manifest.completedRanges := by
  obtain ⟨completed, hinsert⟩ := RangeList.insertAll_of_separated
    (RangeList.WellFormed.empty manifest.totalSize)
    (fun r hr => ⟨h.canonical.nonempty r hr, h.bounded r hr⟩) h.canonical.separated
    (by simp [RangeList.empty])
  obtain ⟨hwf, hcovered, -⟩ :=
    RangeList.insertAll_spec (RangeList.WellFormed.empty manifest.totalSize) hinsert
  refine ⟨completed, hinsert, hwf.canonical.eq_of_covered_eq h.canonical ?_⟩
  rw [hcovered]
  simp [RangeList.empty]

/-- Inserting its records does too. -/
theorem RecordsSound.insertAll {P : Type} {manifest : Manifest P} (h : RecordsSound manifest) :
    ∃ completed, RangeList.empty.insertAll manifest.totalSize
        (recordRanges manifest.verifiedChunks) = .ok completed ∧
      completed.ranges = manifest.completedRanges := by
  obtain ⟨completed, hinsert⟩ := insertAll_of_recordsOk h.ok
  obtain ⟨-, hder⟩ := insertAll_records hinsert
  exact ⟨completed, hinsert, hder.wellFormed.canonical.eq_of_covered_eq h.union.canonical
    (hder.covered_eq.trans h.union.covered_eq.symm)⟩

theorem parseTransferManifest_sound {text : Bytes} {manifest : TransferManifest}
    (h : parseTransferManifest text = .ok manifest) :
    RangesSound manifest ∧
      (manifest.version = kTransferManifestVersion → RecordsSound manifest) := by
  obtain ⟨-, -, ⟨hv, -, -, hcanonical, hbounded⟩ | ⟨-, hsorted, hok⟩⟩ :=
    parseTransferManifest_spec h
  · refine ⟨⟨hcanonical, hbounded⟩, fun hv2 => ?_⟩
    rw [hv] at hv2
    exact absurd hv2 (by decide)
  · exact ⟨⟨hok.canonical, hok.bounded⟩, fun _ => hok.recordsSound hsorted⟩

theorem parseDownloadManifest_sound {text : Bytes} {manifest : DownloadManifest}
    (h : parseDownloadManifest text = .ok manifest) :
    RangesSound manifest ∧ RecordsSound manifest := by
  obtain ⟨-, -, -, hsorted, hok⟩ := parseDownloadManifest_spec h
  exact ⟨⟨hok.canonical, hok.bounded⟩, hok.recordsSound hsorted⟩

/-- The loops of `TransferSession::resume` rebuild the ranges of an accepted
manifest of either version. -/
theorem TransferSession.restore_of_parsed {text : Bytes} {manifest : TransferManifest}
    (h : parseTransferManifest text = .ok manifest) (algorithm : ChecksumAlgorithm) :
    ∃ restored completed, TransferSession.restore
        { manifest with checksumAlgorithm := algorithm } manifest.totalSize =
        .ok (restored, completed) ∧ completed.ranges = manifest.completedRanges := by
  obtain ⟨hranges, hrecords⟩ := parseTransferManifest_sound h
  obtain ⟨-, -, hversion⟩ := parseTransferManifest_spec h
  by_cases hv1 : manifest.version = kTransferManifestVersionV1
  · obtain ⟨completed, hinsert, heq⟩ := hranges.insertAll
    refine ⟨{ manifest with
      checksumAlgorithm := algorithm
      verifiedChunks := manifest.verifiedChunks ++
        manifest.completedRanges.map TransferSession.recordOfRange }, completed, ?_, heq⟩
    rw [TransferSession.restore, if_pos hv1]
    dsimp only
    rw [hinsert]
    rfl
  · have hv2 : manifest.version = kTransferManifestVersion := by
      rcases hversion with ⟨hv, -⟩ | ⟨hv, -⟩
      · exact absurd hv hv1
      · exact hv
    obtain ⟨completed, hinsert, heq⟩ := (hrecords hv2).insertAll
    refine ⟨{ manifest with checksumAlgorithm := algorithm }, completed, ?_, heq⟩
    rw [TransferSession.restore, if_neg hv1]
    dsimp only
    rw [hinsert]
    rfl

/-- **An accepted manifest is sound**, whatever the text, and the loops of
`resume` do not fail on it. -/
theorem parser_sound :
    (∀ (text : Bytes) (manifest : TransferManifest), parseTransferManifest text = .ok manifest →
      RangesSound manifest ∧
      (manifest.version = kTransferManifestVersion → RecordsSound manifest) ∧
      ∀ request, TransferSession.validateLoadedManifest manifest request = .ok () →
        ∃ restored completed, TransferSession.accept request manifest =
          .ok (restored, completed) ∧ completed.ranges = manifest.completedRanges) ∧
    (∀ (text : Bytes) (manifest : DownloadManifest), parseDownloadManifest text = .ok manifest →
      RangesSound manifest ∧ RecordsSound manifest ∧
      ∀ request, DownloadSession.validateLoadedManifest manifest request = .ok () →
        ∃ completed, DownloadSession.accept request manifest = .ok completed ∧
          completed.ranges = manifest.completedRanges) := by
  constructor
  · intro text manifest h
    obtain ⟨hranges, hrecords⟩ := parseTransferManifest_sound h
    refine ⟨hranges, hrecords, fun request hvalid => ?_⟩
    obtain ⟨-, -, -, htotal, -⟩ := TransferSession.validateLoadedManifest_eq_ok.mp hvalid
    obtain ⟨restored, completed, hrestore, heq⟩ :=
      TransferSession.restore_of_parsed h request.checksumAlgorithm
    refine ⟨restored, completed, ?_, heq⟩
    rw [TransferSession.accept, hvalid, ok_bind, ← htotal, hrestore]
  · intro text manifest h
    obtain ⟨hranges, hrecords⟩ := parseDownloadManifest_sound h
    refine ⟨hranges, hrecords, fun request hvalid => ?_⟩
    obtain ⟨-, -, -, -, htotal, -⟩ := DownloadSession.validateLoadedManifest_eq_ok.mp hvalid
    obtain ⟨completed, hinsert, heq⟩ := hrecords.insertAll
    refine ⟨completed, ?_, heq⟩
    rw [DownloadSession.accept, hvalid, ok_bind, DownloadSession.restore, ← htotal, hinsert]

/-- A version 1 text: the first and the last of three bytes are there. -/
def versionOneText : Bytes :=
  bodyOf [(ascii "manifest_version", ascii "1"), (ascii "transfer_id", ascii "t"),
    (ascii "output_path_hex", toHex (ascii "o")), (ascii "temp_path_hex", toHex (ascii "o.part.t")),
    (ascii "total_size", ascii "3"), (ascii "chunk_size", ascii "1"),
    (ascii "created_at_unix_ns", ascii "0"), (ascii "updated_at_unix_ns", ascii "0"),
    (ascii "state", ascii "transferring"), (ascii "completed_ranges", ascii "0-1,2-3")]

def versionOneManifest : TransferManifest :=
  { twoChunkManifest with
    version := kTransferManifestVersionV1, checksumAlgorithm := .none,
    completedRanges := [⟨0, 1⟩, ⟨2, 3⟩], verifiedChunks := [] }

theorem parse_versionOneText : parseTransferManifest versionOneText = .ok versionOneManifest := by
  decide +kernel

theorem parser_sound_of_versionOneText : RangesSound versionOneManifest :=
  (parser_sound.1 versionOneText versionOneManifest parse_versionOneText).1

/-! ### From version 1 to version 2 -/

/-- What a manifest leaves to do. -/
def Manifest.missingRanges {P : Type} (manifest : Manifest P) : List CompletedRange :=
  gaps 0 manifest.totalSize manifest.completedRanges

/-- The request asks for the transfer of a version 1 manifest, which has no
checksums. -/
structure Answers (manifest : TransferManifest) (request : SessionRequest TransferPaths) :
    Prop where
  transferId : manifest.transferId = request.transferId
  outputPath : manifest.paths.outputPath = request.paths.outputPath
  tempPath : manifest.tempPath = tempPathForOutput request.paths.outputPath request.transferId
  totalSize : manifest.totalSize = request.totalSize.toNat
  chunkSize : manifest.chunkSize = request.chunkSize.toNat
  checksumAlgorithm : request.checksumAlgorithm = .none

/-- A version 2 manifest that means what an older one meant. -/
structure Migrated (old new : TransferManifest) : Prop where
  version : new.version = kTransferManifestVersion
  transferId : new.transferId = old.transferId
  paths : new.paths = old.paths
  tempPath : new.tempPath = old.tempPath
  totalSize : new.totalSize = old.totalSize
  chunkSize : new.chunkSize = old.chunkSize
  completedRanges : new.completedRanges = old.completedRanges
  missingRanges : new.missingRanges = old.missingRanges

section Migration

variable {text : Bytes} {manifest : TransferManifest} {request : SessionRequest TransferPaths}

theorem Answers.valid (h : Answers manifest request)
    (hversion : manifest.version = kTransferManifestVersionV1)
    (hstate : manifest.state ≠ .committed) :
    TransferSession.validateLoadedManifest manifest request = .ok () :=
  TransferSession.validateLoadedManifest_eq_ok.mpr
    ⟨h.transferId, h.outputPath, h.tempPath, h.totalSize, h.chunkSize, hstate,
      fun hv => hv.2 h.checksumAlgorithm,
      fun hv => absurd (hversion.symm.trans hv.1) (by decide)⟩

/-- A matching request opens a session on a version 1 manifest. -/
theorem Answers.resume (h : Answers manifest request)
    (hparse : parseTransferManifest text = .ok manifest)
    (hversion : manifest.version = kTransferManifestVersionV1)
    (hstate : manifest.state ≠ .committed)
    (hvalid : TransferSession.validateSessionInputs request = .ok ()) {w : World}
    (hquiet : w.Quiet)
    (hfile : w.files (manifestPathForOutput request.paths.outputPath) = some text) :
    ∃ s w', TransferSession.resume request w = (.ok s, w') := by
  obtain ⟨restored, completed, hrestore, -⟩ :=
    TransferSession.restore_of_parsed hparse request.checksumAlgorithm
  have haccept : TransferSession.accept request manifest = .ok (restored, completed) := by
    rw [TransferSession.accept, h.valid hversion hstate, ok_bind, ← h.totalSize, hrestore]
  have hbackend : resolveChecksumBackend w.crc32cHardwareAvailable request.checksumAlgorithm
      request.checksumBackend = .ok .software := by
    rw [h.checksumAlgorithm]
    rfl
  have hload := loadTransferManifest_of_quiet hquiet hfile
  rw [hparse] at hload
  have hresume : TransferSession.resume request w =
      (.ok (Session.resumed transferSessionFormat request .software restored completed
          w.afterCall.afterCall.nowUnixNanos.1), w.afterCall.afterCall.nowUnixNanos.2) := by
    rw [TransferSession.resume]
    simp only [hvalid, hbackend, hload, haccept]
  exact ⟨_, _, hresume⟩

/-- A resumed session starts from the ranges of the manifest. -/
theorem resume_completed {w w' : World} {s : TransferSession}
    (hparse : parseTransferManifest text = .ok manifest)
    (hfile : w.files (manifestPathForOutput request.paths.outputPath) = some text)
    (hresume : TransferSession.resume request w = (.ok s, w')) :
    s.completed.ranges = manifest.completedRanges ∧
      s.manifest.totalSize = manifest.totalSize := by
  obtain ⟨backend, now, text', manifest', restored, completed, -, -, hfile', hparse', haccept,
    rfl⟩ := TransferSession.resume_ok hresume
  obtain rfl := Option.some.inj (hfile'.symm.trans hfile)
  obtain rfl := Except.ok.inj (hparse'.symm.trans hparse)
  obtain ⟨-, -, -, -, htotal', -⟩ := TransferSession.accept_ok hparse haccept
  simp only [TransferSession.accept, bind_eq_ok] at haccept
  obtain ⟨_, hvalid, hrestore⟩ := haccept
  obtain ⟨-, -, -, htotal, -⟩ := TransferSession.validateLoadedManifest_eq_ok.mp hvalid
  obtain ⟨restored', completed', hrestore', heq⟩ :=
    TransferSession.restore_of_parsed hparse request.checksumAlgorithm
  rw [← htotal, hrestore'] at hrestore
  obtain ⟨rfl, rfl⟩ := Prod.mk.inj (Except.ok.inj hrestore)
  exact ⟨heq, htotal'.trans htotal.symm⟩

/-- What a resumed session saves and a fresh load returns. -/
theorem Answers.migrated (h : Answers manifest request)
    (hparse : parseTransferManifest text = .ok manifest) {w w' w₁ w₂ w₃ : World}
    {s s' : TransferSession} {u : Unit}
    (hfile : w.files (manifestPathForOutput request.paths.outputPath) = some text)
    (hresume : TransferSession.resume request w = (.ok s, w'))
    (hsave : s.save transferSessionFormat w₁ = (.ok u, s', w₂)) (hquiet : w₃.Quiet)
    (hkept : w₃.files (manifestPathForOutput request.paths.outputPath) =
      w₂.files (manifestPathForOutput request.paths.outputPath)) :
    ∃ loaded, (loadTransferManifest w₃ (manifestPathForOutput request.paths.outputPath)).1 =
      .ok loaded ∧ Migrated manifest loaded := by
  obtain ⟨hcompleted, htotal⟩ := resume_completed hparse hfile hresume
  obtain ⟨hsound, -⟩ :=
    TransferSession.Opens.sound ⟨w, w', rfl, Or.inr hresume⟩
  obtain ⟨hsound', -, -, -, hcheck, -, hok'⟩ := hsound.save_text hsave
  obtain ⟨written, loaded, hwritten, hloaded, rfl⟩ :=
    hsound.save_stored transfer_readsBack hsave
  rw [hsound'.opened.manifestPath] at hwritten
  obtain ⟨hversion', -⟩ := (checkSerializable_eq_ok _).mp hcheck
  -- the save changes neither the range list nor the size
  obtain ⟨-, -, hs', -⟩ := Session.save_ok hsave
  have hranges : s'.manifest.completedRanges = manifest.completedRanges := by
    rw [hs']
    exact (hsound.ranges.prepareSave _).trans hcompleted
  have hsize : s'.manifest.totalSize = manifest.totalSize := by
    rw [hs']
    exact htotal
  refine ⟨s'.stored, ?_, hversion', hsound'.opened.transferId.trans h.transferId.symm, ?_, ?_,
    hsize, ?_, hranges, ?_⟩
  · rw [loadTransferManifest_of_quiet hquiet (hkept.trans hwritten)]
    exact hloaded
  · exact hsound'.opened.paths.trans (congrArg TransferPaths.mk h.outputPath.symm)
  · exact hsound'.opened.tempPath.trans h.tempPath.symm
  · exact hsound'.opened.chunkSize.trans h.chunkSize.symm
  · rw [Manifest.missingRanges, Manifest.missingRanges]
    show gaps 0 s'.manifest.totalSize s'.manifest.completedRanges = _
    rw [hsize, hranges]

end Migration

/-- **Migration preserves meaning**: a version 1 manifest that is not committed
can be resumed with matching parameters; the session is where the manifest was;
and once saved and loaded again the manifest is one of version 2 for the same
transfer with the same completed and missing ranges. -/
theorem v1_migration {text : Bytes} {manifest : TransferManifest}
    {request : SessionRequest TransferPaths}
    (hparse : parseTransferManifest text = .ok manifest)
    (hversion : manifest.version = kTransferManifestVersionV1)
    (hstate : manifest.state ≠ .committed) (hanswers : Answers manifest request)
    (hvalid : TransferSession.validateSessionInputs request = .ok ()) :
    (∀ w : World, w.Quiet →
      w.files (manifestPathForOutput request.paths.outputPath) = some text →
      ∃ s w', TransferSession.resume request w = (.ok s, w')) ∧
    ∀ (w w' : World) (s : TransferSession),
      w.files (manifestPathForOutput request.paths.outputPath) = some text →
      TransferSession.resume request w = (.ok s, w') →
      s.completed.ranges = manifest.completedRanges ∧
      s.missingRanges = manifest.missingRanges ∧
      ∀ (w₁ w₂ : World) (s' : TransferSession) (u : Unit),
        s.save transferSessionFormat w₁ = (.ok u, s', w₂) → ∀ w₃ : World, w₃.Quiet →
        w₃.files (manifestPathForOutput request.paths.outputPath) =
          w₂.files (manifestPathForOutput request.paths.outputPath) →
        ∃ loaded, (loadTransferManifest w₃ (manifestPathForOutput request.paths.outputPath)).1 =
          .ok loaded ∧ Migrated manifest loaded := by
  refine ⟨fun w hquiet hfile => hanswers.resume hparse hversion hstate hvalid hquiet hfile,
    fun w w' s hfile hresume => ?_⟩
  obtain ⟨hcompleted, htotal⟩ := resume_completed hparse hfile hresume
  refine ⟨hcompleted, ?_, fun w₁ w₂ s' u hsave w₃ hquiet hkept =>
    hanswers.migrated hparse hfile hresume hsave hquiet hkept⟩
  rw [Session.missingRanges, RangeList.missingRanges, htotal, hcompleted, Manifest.missingRanges]

/-- The request that answers `versionOneText`. -/
def versionOneRequest : SessionRequest TransferPaths :=
  ⟨⟨ascii "o"⟩, ascii "t", 3, 1, .none, .auto, .finalOnly, 1⟩

theorem v1_migration_of_versionOneText :
    ∃ s w', TransferSession.resume versionOneRequest
        (.withFiles fun path => if path = ascii "o.gridflux.manifest" then some versionOneText
          else none) = (.ok s, w') :=
  (v1_migration parse_versionOneText rfl (by decide) ⟨rfl, rfl, by decide, by decide, by decide,
    rfl⟩ (by decide +kernel)).1 _ (fun _ h => (List.not_mem_nil h).elim) (by decide +kernel)

end GridFlux
