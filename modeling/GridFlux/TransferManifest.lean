/-
GridFlux/TransferManifest.lean

`checkpoint/transfer_manifest.cpp`: the manifest of an upload.

The serializers are the shared ones at `transferFormat`.  The parser reads two
versions: version 2 carries chunk records and is guarded by the body checksum;
version 1 carries completed ranges only and no checksum is looked at.

Main results: whatever the parser accepts is well formed
(`parseTransferManifest_spec`), and a serialized manifest reads back
(`parseTransferManifest_withBodyChecksum`).
-/
import GridFlux.Manifest

namespace GridFlux

open HalfOpen TextCodec

/-! ### The record and its format -/

structure TransferPaths where
  outputPath : Bytes
deriving DecidableEq, Repr

/-- `checkpoint::TransferManifest`. -/
abbrev TransferManifest := Manifest TransferPaths

def kTransferManifestVersionV1 : Nat := 1
def kTransferManifestVersion : Nat := 2

def manifestPathForOutput (outputPath : Bytes) : Bytes :=
  outputPath ++ ascii ".gridflux.manifest"

def tempPathForOutput (outputPath transferId : Bytes) : Bytes :=
  outputPath ++ ascii ".part." ++ transferId

def transferFormat : ManifestFormat TransferPaths where
  version := kTransferManifestVersion
  pathKeys := [ascii "output_path_hex"]
  pathValues p := [p.outputPath]
  badVersion := ascii "serializer only writes manifest version 2"
  emptyPaths := ascii "manifest paths must not be empty"
  zeroChunkSize := ascii "manifest chunk_size must be greater than zero"
  length_pathValues _ := rfl
  keysReadable := by decide

def serializeTransferManifest (manifest : TransferManifest) : Except Status Bytes :=
  serializeManifest transferFormat manifest

def serializePreparedTransferManifest (manifest : TransferManifest) : Except Status Bytes :=
  serializePreparedManifest transferFormat manifest

/-! ### The parser -/

def readTransferLines (text : Bytes) : Except Status ManifestLines :=
  readLines (ascii "manifest line missing equals")
    (ascii "manifest contains duplicate or empty key") text

def requireTransferKey (read : ManifestLines) (key : Bytes) : Except Status Unit :=
  read.requireKey (ascii "manifest missing key: ") key

/-- The keys both versions need besides the version itself. -/
def transferKeys : List Bytes :=
  [ascii "transfer_id", ascii "output_path_hex", ascii "temp_path_hex", ascii "total_size",
    ascii "chunk_size", ascii "created_at_unix_ns", ascii "updated_at_unix_ns", ascii "state",
    ascii "completed_ranges"]

/-- The keys version 2 needs on top. -/
def transferKeysV2 : List Bytes :=
  [ascii "checksum_algorithm", ascii "verified_chunks", checksumKey]

/-- The version line. -/
def transferVersion (read : ManifestLines) : Except Status Nat := do
  requireTransferKey read (ascii "manifest_version")
  let version ← parseU64 (read.value (ascii "manifest_version")) (ascii "manifest_version")
  require (version = kTransferManifestVersionV1 ∨ version = kTransferManifestVersion)
    (.invalidArgument (ascii "unsupported manifest version"))
  return version

/-- The version 2 part of the checks: three more keys and the body checksum. -/
def checkTransferBody (read : ManifestLines) : Except Status Unit := do
  transferKeysV2.forM (requireTransferKey read)
  let expected ← parseHex32 read.expectedBodyChecksum checksumKey
  require (crc32cOf read.bodyText = expected)
    (.invalidArgument (ascii "manifest body checksum mismatch"))

/-- The fields both versions have, read in the order of the source. -/
def parseTransferFields (read : ManifestLines) (version : Nat) :
    Except Status TransferManifest := do
  let transferId := read.value (ascii "transfer_id")
  require (isValidTransferId transferId) (.invalidArgument (ascii "invalid transfer_id"))
  let outputPath ← fromHexString (read.value (ascii "output_path_hex"))
  let tempPath ← fromHexString (read.value (ascii "temp_path_hex"))
  require (outputPath ≠ [] ∧ tempPath ≠ [])
    (.invalidArgument (ascii "manifest paths must not be empty"))
  let totalSize ← parseU64 (read.value (ascii "total_size")) (ascii "total_size")
  let chunkSize ← parseU64 (read.value (ascii "chunk_size")) (ascii "chunk_size")
  let createdAt ← parseU64 (read.value (ascii "created_at_unix_ns")) (ascii "created_at_unix_ns")
  let updatedAt ← parseU64 (read.value (ascii "updated_at_unix_ns")) (ascii "updated_at_unix_ns")
  let state ← parseManifestState (read.value (ascii "state"))
  require (chunkSize ≠ 0)
    (.invalidArgument (ascii "manifest chunk_size must be greater than zero"))
  let ranges ← parseRanges (ascii "manifest range missing dash")
    (ascii "manifest range end must exceed begin") (read.value (ascii "completed_ranges")) totalSize
  return {
    version := version
    transferId := transferId
    paths := ⟨outputPath⟩
    tempPath := tempPath
    totalSize := totalSize
    chunkSize := chunkSize
    checksumAlgorithm := .none
    createdAtUnixNanos := createdAt
    updatedAtUnixNanos := updatedAt
    state := state
    completedRanges := ranges
    verifiedChunks := [] }

/-- The version 2 fields, and the comparison of the declared ranges with the
ones derived from the records. -/
def parseTransferRecords (read : ManifestLines) (manifest : TransferManifest) :
    Except Status TransferManifest := do
  let algorithm ← parseChecksumAlgorithm (read.value (ascii "checksum_algorithm"))
  let verified ← parseVerifiedChunks true (read.value (ascii "verified_chunks"))
    manifest.totalSize algorithm
  let derived ← completedFromVerified verified manifest.totalSize
  require (derived.ranges = manifest.completedRanges)
    (.invalidArgument (ascii "completed_ranges do not match verified chunks"))
  return { manifest with checksumAlgorithm := algorithm, verifiedChunks := verified }

def parseTransferManifest (text : Bytes) : Except Status TransferManifest := do
  let read ← readTransferLines text
  let version ← transferVersion read
  transferKeys.forM (requireTransferKey read)
  if version = kTransferManifestVersion then
    checkTransferBody read
    let manifest ← parseTransferFields read version
    parseTransferRecords read manifest
  else
    parseTransferFields read version

/-! ### Reading back what was written -/

section RoundTrip

variable (manifest : TransferManifest) (ranges : List CompletedRange) (digits : Bytes)

/-- What the reading loop gathers from a serialized manifest. -/
def transferLines : ManifestLines :=
  ⟨manifestEntries transferFormat manifest ranges ++ [(checksumKey, digits)],
    buildManifestBody transferFormat manifest ranges, digits⟩

theorem readTransferLines_checksummedText (hid : isValidTransferId manifest.transferId)
    (hd : newline ∉ digits) :
    readTransferLines (checksummedText (buildManifestBody transferFormat manifest ranges) digits) =
      .ok (transferLines manifest ranges digits) :=
  readLines_checksummedText (manifestEntries_bodyOk transferFormat ranges hid) hd

theorem requireTransferKey_transferLines {key : Bytes}
    (hkey : key ∈ headKeys ++ transferFormat.pathKeys ++ tailKeys ++ [checksumKey]) :
    requireTransferKey (transferLines manifest ranges digits) key = .ok () := by
  refine requireKey_eq_ok.mpr ?_
  simp only [transferLines, List.map_append, manifestEntries_keys]
  exact hkey

theorem transferLines_value {key value : Bytes}
    (h : (transferLines manifest ranges digits).values.lookup key = some value) :
    (transferLines manifest ranges digits).value key = value := by
  rw [ManifestLines.value, h]
  rfl

/-- The common fields of a serialized manifest read back. -/
theorem parseTransferFields_transferLines (hid : isValidTransferId manifest.transferId)
    (hpaths : manifest.paths.outputPath ≠ [] ∧ manifest.tempPath ≠ [])
    (hchunk : manifest.chunkSize ≠ 0) (hfits : manifest.Fits) (hcanonical : Canonical ranges)
    (hbounded : ∀ r ∈ ranges, r.end ≤ manifest.totalSize) (version : Nat) :
    parseTransferFields (transferLines manifest ranges digits) version =
      .ok { manifest with
        version := version, checksumAlgorithm := .none, completedRanges := ranges,
        verifiedChunks := [] } := by
  have hvalue := fun {key value} => @transferLines_value manifest ranges digits key value
  rw [parseTransferFields, @hvalue (ascii "transfer_id") manifest.transferId rfl,
    @hvalue (ascii "output_path_hex") (toHex manifest.paths.outputPath) rfl,
    @hvalue (ascii "temp_path_hex") (toHex manifest.tempPath) rfl,
    @hvalue (ascii "total_size") (decimal manifest.totalSize) rfl,
    @hvalue (ascii "chunk_size") (decimal manifest.chunkSize) rfl,
    @hvalue (ascii "created_at_unix_ns") (decimal manifest.createdAtUnixNanos) rfl,
    @hvalue (ascii "updated_at_unix_ns") (decimal manifest.updatedAtUnixNanos) rfl,
    @hvalue (ascii "state") (manifestStateName manifest.state) rfl,
    @hvalue (ascii "completed_ranges") (serializeRanges ranges) rfl]
  simp only [require_pos hid, fromHexString_toHex, require_pos hpaths, ok_bind,
    parseU64_decimal hfits.totalSize, parseU64_decimal hfits.chunkSize,
    parseU64_decimal hfits.createdAt, parseU64_decimal hfits.updatedAt, parseManifestState_name,
    require_pos hchunk,
    parseRanges_serializeRanges hcanonical hbounded hfits.totalSize]
  rfl

/-- The version 2 fields read back, the records sorted. -/
theorem parseTransferRecords_transferLines (hfits : manifest.Fits)
    (hok : ManifestOk manifest ranges) {read : TransferManifest}
    (hsize : read.totalSize = manifest.totalSize) (hranges : read.completedRanges = ranges) :
    parseTransferRecords (transferLines manifest ranges digits) read =
      .ok { read with
        checksumAlgorithm := manifest.checksumAlgorithm
        verifiedChunks := sortedRecords manifest.verifiedChunks } := by
  obtain ⟨completed, hder, hcompleted⟩ := hok.derived (sortedRecords_perm _)
  have hrecords : ∀ r ∈ manifest.verifiedChunks,
      r.Fits ∧ r.checksum.algorithm = manifest.checksumAlgorithm := fun r hr =>
    ⟨hfits.records hok.records r hr, hok.algorithms r hr⟩
  have hvalue := fun {key value} => @transferLines_value manifest ranges digits key value
  rw [parseTransferRecords, @hvalue (ascii "checksum_algorithm")
      (checksumAlgorithmName manifest.checksumAlgorithm) rfl,
    @hvalue (ascii "verified_chunks") (serializeVerifiedChunksSorted manifest.verifiedChunks) rfl]
  simp only [parseChecksumAlgorithm_name, ok_bind, hsize,
    parseVerifiedChunks_serialize true hrecords hok.records, hder]
  rw [require_pos (hcompleted.trans hranges.symm)]
  rfl

theorem transferVersion_transferLines
    (hversion : manifest.version = kTransferManifestVersionV1 ∨
      manifest.version = kTransferManifestVersion) :
    transferVersion (transferLines manifest ranges digits) = .ok manifest.version := by
  have hlt : manifest.version < 2 ^ 64 := by
    rcases hversion with h | h
    · rw [h]
      decide
    · rw [h]
      decide
  have hvalue : (transferLines manifest ranges digits).value (ascii "manifest_version") =
      decimal manifest.version := transferLines_value _ _ _ rfl
  simp only [transferVersion, hvalue]
  rw [requireTransferKey_transferLines _ _ _ (by decide), ok_bind, parseU64_decimal hlt, ok_bind,
    require_pos hversion, ok_bind]
  rfl

/-- **A serialized manifest reads back**, whatever order its records were
written in: the parser returns it with the records sorted. -/
theorem parseTransferManifest_withBodyChecksum
    (hversion : manifest.version = kTransferManifestVersion)
    (hid : isValidTransferId manifest.transferId)
    (hpaths : manifest.paths.outputPath ≠ [] ∧ manifest.tempPath ≠ [])
    (hchunk : manifest.chunkSize ≠ 0) (hfits : manifest.Fits)
    (hok : ManifestOk manifest ranges) :
    parseTransferManifest (withBodyChecksum (buildManifestBody transferFormat manifest ranges)) =
      .ok { manifest with
        completedRanges := ranges, verifiedChunks := sortedRecords manifest.verifiedChunks } := by
  have hread := readTransferLines_checksummedText manifest ranges
    (hex32 (crc32cOf (buildManifestBody transferFormat manifest ranges))) hid
    (notMem_hex32 (by decide))
  have hkeys : transferKeys.forM (requireTransferKey (transferLines manifest ranges
      (hex32 (crc32cOf (buildManifestBody transferFormat manifest ranges))))) = .ok () :=
    forM_eq_ok.mpr fun key hkey => requireTransferKey_transferLines _ _ _
      (by revert key; decide)
  have hbody : checkTransferBody (transferLines manifest ranges
      (hex32 (crc32cOf (buildManifestBody transferFormat manifest ranges)))) = .ok () := by
    have hkeysV2 : transferKeysV2.forM (requireTransferKey (transferLines manifest ranges
        (hex32 (crc32cOf (buildManifestBody transferFormat manifest ranges))))) = .ok () :=
      forM_eq_ok.mpr fun key hkey => requireTransferKey_transferLines _ _ _
        (by revert key; decide)
    rw [checkTransferBody, hkeysV2, ok_bind]
    show (parseHex32 (hex32 _) _ >>= _) = _
    rw [parseHex32_hex32, ok_bind]
    exact require_pos rfl
  rw [parseTransferManifest, withBodyChecksum, hread, ok_bind,
    transferVersion_transferLines _ _ _ (Or.inr hversion), ok_bind, hkeys, ok_bind,
    if_pos hversion, hbody, ok_bind,
    parseTransferFields_transferLines _ _ _ hid hpaths hchunk hfits hok.canonical hok.bounded,
    ok_bind]
  exact parseTransferRecords_transferLines _ _ _ hfits hok rfl rfl

/-- A version 1 text reads back without any look at its checksum line. -/
theorem parseTransferManifest_v1 (hversion : manifest.version = kTransferManifestVersionV1)
    (hid : isValidTransferId manifest.transferId)
    (hpaths : manifest.paths.outputPath ≠ [] ∧ manifest.tempPath ≠ [])
    (hchunk : manifest.chunkSize ≠ 0) (hfits : manifest.Fits) (hcanonical : Canonical ranges)
    (hbounded : ∀ r ∈ ranges, r.end ≤ manifest.totalSize) (hd : newline ∉ digits) :
    parseTransferManifest (checksummedText (buildManifestBody transferFormat manifest ranges)
        digits) =
      .ok { manifest with
        checksumAlgorithm := .none, completedRanges := ranges, verifiedChunks := [] } := by
  have hkeys : transferKeys.forM (requireTransferKey (transferLines manifest ranges digits)) =
      .ok () :=
    forM_eq_ok.mpr fun key hkey => requireTransferKey_transferLines _ _ _
      (by revert key; decide)
  have hne : manifest.version ≠ kTransferManifestVersion := by
    rw [hversion]
    decide
  rw [parseTransferManifest, readTransferLines_checksummedText _ _ _ hid hd, ok_bind,
    transferVersion_transferLines _ _ _ (Or.inl hversion), ok_bind, hkeys, ok_bind, if_neg hne]
  exact parseTransferFields_transferLines _ _ _ hid hpaths hchunk hfits hcanonical hbounded _

end RoundTrip

/-! ### What the parser accepts -/

theorem parseTransferFields_spec {read : ManifestLines} {version : Nat}
    {manifest : TransferManifest} (h : parseTransferFields read version = .ok manifest) :
    manifest.version = version ∧ isValidTransferId manifest.transferId ∧
      manifest.chunkSize ≠ 0 ∧ manifest.Fits ∧ manifest.checksumAlgorithm = .none ∧
      manifest.verifiedChunks = [] ∧ Canonical manifest.completedRanges ∧
      ∀ r ∈ manifest.completedRanges, r.end ≤ manifest.totalSize := by
  simp only [parseTransferFields, bind_eq_ok] at h
  obtain ⟨_, hid, _, -, _, -, _, -, _, htotal, _, hchunk, _, hcreated, _, hupdated, _, -, _,
    hne, _, hranges, heq⟩ := h
  obtain rfl := Except.ok.inj heq
  obtain ⟨hc, hb⟩ := parseRanges_spec hranges
  exact ⟨rfl, require_eq_ok.mp hid, require_eq_ok.mp hne,
    ⟨parseU64_lt htotal, parseU64_lt hchunk, parseU64_lt hcreated, parseU64_lt hupdated, by simp⟩,
    rfl, rfl, hc, hb⟩

theorem parseTransferRecords_spec {read : ManifestLines} {base manifest : TransferManifest}
    (h : parseTransferRecords read base = .ok manifest) (hbase : base.Fits)
    (hc : Canonical base.completedRanges) :
    RecordsSorted manifest.verifiedChunks ∧ ManifestOk manifest manifest.completedRanges ∧
      manifest.Fits ∧
      manifest = { base with
        checksumAlgorithm := manifest.checksumAlgorithm
        verifiedChunks := manifest.verifiedChunks } := by
  simp only [parseTransferRecords, bind_eq_ok] at h
  obtain ⟨algorithm, -, verified, hverified, derived, hderived, _, hranges, heq⟩ := h
  obtain rfl := Except.ok.inj heq
  obtain ⟨hsorted, hall, hok⟩ := parseVerifiedChunks_spec hverified
  obtain ⟨-, hder⟩ := completedFromVerified_spec hderived
  refine ⟨hsorted, ⟨hok, fun r hr => (hall r hr).2, hc, ?_⟩, ?_, rfl⟩
  · rw [← require_eq_ok.mp hranges]
    exact hder.covered_eq
  · exact ⟨hbase.totalSize, hbase.chunkSize, hbase.createdAt, hbase.updatedAt,
      fun r hr => (hall r hr).1.1⟩

/-- **Whatever the parser accepts is well formed**: a version 1 manifest
carries canonical in-bounds ranges and nothing else, a version 2 manifest
sorted records that cover exactly its ranges. -/
theorem parseTransferManifest_spec {text : Bytes} {manifest : TransferManifest}
    (h : parseTransferManifest text = .ok manifest) :
    manifest.Fits ∧ manifest.chunkSize ≠ 0 ∧
    ((manifest.version = kTransferManifestVersionV1 ∧ manifest.checksumAlgorithm = .none ∧
        manifest.verifiedChunks = [] ∧ Canonical manifest.completedRanges ∧
        ∀ r ∈ manifest.completedRanges, r.end ≤ manifest.totalSize) ∨
      (manifest.version = kTransferManifestVersion ∧ RecordsSorted manifest.verifiedChunks ∧
        ManifestOk manifest manifest.completedRanges)) := by
  simp only [parseTransferManifest, bind_eq_ok] at h
  obtain ⟨read, -, version, hversion, _, -, h⟩ := h
  split at h
  · rename_i hv2
    simp only [bind_eq_ok] at h
    obtain ⟨_, -, base, hbase, hrecords⟩ := h
    obtain ⟨hv, -, hchunk, hfits, -, -, hc, -⟩ := parseTransferFields_spec hbase
    obtain ⟨hsorted, hok, hfits', heq⟩ := parseTransferRecords_spec hrecords hfits hc
    refine ⟨hfits', ?_, Or.inr ⟨?_, hsorted, hok⟩⟩
    · rw [heq]
      exact hchunk
    · rw [heq]
      exact hv.trans hv2
  · rename_i hv2
    obtain ⟨hv, -, hchunk, hfits, halg, hnil, hc, hb⟩ := parseTransferFields_spec h
    refine ⟨hfits, hchunk, Or.inl ⟨?_, halg, hnil, hc, hb⟩⟩
    simp only [transferVersion, bind_eq_ok] at hversion
    obtain ⟨_, -, v, -, _, hor, heq⟩ := hversion
    obtain rfl := Except.ok.inj heq
    rw [hv]
    exact (require_eq_ok.mp hor).resolve_right hv2

end GridFlux
