/-
GridFlux/DownloadManifest.lean

`checkpoint/download_manifest.cpp`: the manifest of a download.

The serializers are the shared ones at `downloadFormat`.  The parser knows one
version and always checks the body checksum.

Main results: `parseDownloadManifest_spec` and
`parseDownloadManifest_withBodyChecksum`, as for the transfer manifest.
-/
import GridFlux.Manifest

namespace GridFlux

open HalfOpen TextCodec

/-! ### The record and its format -/

structure DownloadPaths where
  sourcePath : Bytes
  targetPath : Bytes
deriving DecidableEq, Repr

/-- `checkpoint::DownloadManifest`. -/
abbrev DownloadManifest := Manifest DownloadPaths

def kDownloadManifestVersion : Nat := 1

def downloadManifestPathForOutput (outputPath : Bytes) : Bytes :=
  outputPath ++ ascii ".gridflux.download.manifest"

def downloadTempPathForOutput (outputPath transferId : Bytes) : Bytes :=
  outputPath ++ ascii ".part." ++ transferId

def downloadFormat : ManifestFormat DownloadPaths where
  version := kDownloadManifestVersion
  pathKeys := [ascii "source_path_hex", ascii "target_path_hex"]
  pathValues p := [p.sourcePath, p.targetPath]
  badVersion := ascii "unsupported download manifest version"
  emptyPaths := ascii "download manifest paths must not be empty"
  zeroChunkSize := ascii "download manifest chunk_size must be greater than zero"
  length_pathValues _ := rfl
  keysReadable := by decide

def serializeDownloadManifest (manifest : DownloadManifest) : Except Status Bytes :=
  serializeManifest downloadFormat manifest

def serializePreparedDownloadManifest (manifest : DownloadManifest) : Except Status Bytes :=
  serializePreparedManifest downloadFormat manifest

/-! ### The parser -/

def readDownloadLines (text : Bytes) : Except Status ManifestLines :=
  readLines (ascii "download manifest line missing equals")
    (ascii "download manifest contains duplicate or empty key") text

def requireDownloadKey (read : ManifestLines) (key : Bytes) : Except Status Unit :=
  read.requireKey (ascii "download manifest missing key: ") key

def downloadKeys : List Bytes :=
  [ascii "manifest_version", ascii "transfer_id", ascii "source_path_hex",
    ascii "target_path_hex", ascii "temp_path_hex", ascii "total_size", ascii "chunk_size",
    ascii "checksum_algorithm", ascii "created_at_unix_ns", ascii "updated_at_unix_ns",
    ascii "state", ascii "completed_ranges", ascii "verified_chunks", checksumKey]

/-- The version line and the body checksum. -/
def checkDownloadBody (read : ManifestLines) : Except Status Nat := do
  let version ← parseU64 (read.value (ascii "manifest_version")) (ascii "manifest_version")
  require (version = kDownloadManifestVersion)
    (.invalidArgument (ascii "unsupported download manifest version"))
  let expected ← parseHex32 read.expectedBodyChecksum checksumKey
  require (crc32cOf read.bodyText = expected)
    (.invalidArgument (ascii "download manifest body checksum mismatch"))
  return version

/-- The fields, read in the order of the source. -/
def parseDownloadFields (read : ManifestLines) (version : Nat) :
    Except Status DownloadManifest := do
  let transferId := read.value (ascii "transfer_id")
  require (isValidTransferId transferId) (.invalidArgument (ascii "invalid transfer_id"))
  let sourcePath ← fromHexString (read.value (ascii "source_path_hex"))
  let targetPath ← fromHexString (read.value (ascii "target_path_hex"))
  let tempPath ← fromHexString (read.value (ascii "temp_path_hex"))
  require (sourcePath ≠ [] ∧ targetPath ≠ [] ∧ tempPath ≠ [])
    (.invalidArgument (ascii "download manifest paths must not be empty"))
  let totalSize ← parseU64 (read.value (ascii "total_size")) (ascii "total_size")
  let chunkSize ← parseU64 (read.value (ascii "chunk_size")) (ascii "chunk_size")
  let createdAt ← parseU64 (read.value (ascii "created_at_unix_ns")) (ascii "created_at_unix_ns")
  let updatedAt ← parseU64 (read.value (ascii "updated_at_unix_ns")) (ascii "updated_at_unix_ns")
  let state ← parseManifestState (read.value (ascii "state"))
  let algorithm ← parseChecksumAlgorithm (read.value (ascii "checksum_algorithm"))
  require (chunkSize ≠ 0)
    (.invalidArgument (ascii "download manifest chunk_size must be greater than zero"))
  let ranges ← parseRanges (ascii "download manifest range missing dash")
    (ascii "download manifest range end must exceed begin")
    (read.value (ascii "completed_ranges")) totalSize
  let verified ← parseVerifiedChunks false (read.value (ascii "verified_chunks")) totalSize
    algorithm
  let derived ← completedFromVerified verified totalSize
  require (derived.ranges = ranges)
    (.invalidArgument (ascii "download completed_ranges do not match verified chunks"))
  return {
    version := version
    transferId := transferId
    paths := ⟨sourcePath, targetPath⟩
    tempPath := tempPath
    totalSize := totalSize
    chunkSize := chunkSize
    checksumAlgorithm := algorithm
    createdAtUnixNanos := createdAt
    updatedAtUnixNanos := updatedAt
    state := state
    completedRanges := ranges
    verifiedChunks := verified }

def parseDownloadManifest (text : Bytes) : Except Status DownloadManifest := do
  let read ← readDownloadLines text
  downloadKeys.forM (requireDownloadKey read)
  let version ← checkDownloadBody read
  parseDownloadFields read version

/-! ### Reading back what was written -/

section RoundTrip

variable (manifest : DownloadManifest) (ranges : List CompletedRange) (digits : Bytes)

/-- What the reading loop gathers from a serialized manifest. -/
def downloadLines : ManifestLines :=
  ⟨manifestEntries downloadFormat manifest ranges ++ [(checksumKey, digits)],
    buildManifestBody downloadFormat manifest ranges, digits⟩

theorem requireDownloadKey_downloadLines {key : Bytes}
    (hkey : key ∈ headKeys ++ downloadFormat.pathKeys ++ tailKeys ++ [checksumKey]) :
    requireDownloadKey (downloadLines manifest ranges digits) key = .ok () := by
  refine requireKey_eq_ok.mpr ?_
  simp only [downloadLines, List.map_append, manifestEntries_keys]
  exact hkey

theorem downloadLines_value {key value : Bytes}
    (h : (downloadLines manifest ranges digits).values.lookup key = some value) :
    (downloadLines manifest ranges digits).value key = value := by
  rw [ManifestLines.value, h]
  rfl

theorem checkDownloadBody_downloadLines (hversion : manifest.version = kDownloadManifestVersion) :
    checkDownloadBody (downloadLines manifest ranges
      (hex32 (crc32cOf (buildManifestBody downloadFormat manifest ranges)))) =
      .ok manifest.version := by
  have hlt : manifest.version < 2 ^ 64 := by
    rw [hversion]
    decide
  have hvalue : (downloadLines manifest ranges
      (hex32 (crc32cOf (buildManifestBody downloadFormat manifest ranges)))).value
      (ascii "manifest_version") = decimal manifest.version := downloadLines_value _ _ _ rfl
  rw [checkDownloadBody, hvalue, parseU64_decimal hlt, ok_bind, require_pos hversion, ok_bind]
  show (parseHex32 (hex32 _) _ >>= _) = _
  rw [parseHex32_hex32, ok_bind]
  show (require (crc32cOf (buildManifestBody downloadFormat manifest ranges) = _) _ >>= _) = _
  rw [require_pos rfl]
  rfl

/-- The fields of a serialized manifest read back, the records sorted. -/
theorem parseDownloadFields_downloadLines (hid : isValidTransferId manifest.transferId)
    (hpaths : manifest.paths.sourcePath ≠ [] ∧ manifest.paths.targetPath ≠ [] ∧
      manifest.tempPath ≠ [])
    (hchunk : manifest.chunkSize ≠ 0) (hfits : manifest.Fits) (hok : ManifestOk manifest ranges)
    (version : Nat) :
    parseDownloadFields (downloadLines manifest ranges digits) version =
      .ok { manifest with
        version := version, completedRanges := ranges,
        verifiedChunks := sortedRecords manifest.verifiedChunks } := by
  obtain ⟨completed, hder, hcompleted⟩ := hok.derived (sortedRecords_perm _)
  have hrecords : ∀ r ∈ manifest.verifiedChunks,
      r.Fits ∧ r.checksum.algorithm = manifest.checksumAlgorithm := fun r hr =>
    ⟨hfits.records hok.records r hr, hok.algorithms r hr⟩
  have hvalue := fun {key value} => @downloadLines_value manifest ranges digits key value
  rw [parseDownloadFields, @hvalue (ascii "transfer_id") manifest.transferId rfl,
    @hvalue (ascii "source_path_hex") (toHex manifest.paths.sourcePath) rfl,
    @hvalue (ascii "target_path_hex") (toHex manifest.paths.targetPath) rfl,
    @hvalue (ascii "temp_path_hex") (toHex manifest.tempPath) rfl,
    @hvalue (ascii "total_size") (decimal manifest.totalSize) rfl,
    @hvalue (ascii "chunk_size") (decimal manifest.chunkSize) rfl,
    @hvalue (ascii "created_at_unix_ns") (decimal manifest.createdAtUnixNanos) rfl,
    @hvalue (ascii "updated_at_unix_ns") (decimal manifest.updatedAtUnixNanos) rfl,
    @hvalue (ascii "state") (manifestStateName manifest.state) rfl,
    @hvalue (ascii "checksum_algorithm") (checksumAlgorithmName manifest.checksumAlgorithm) rfl,
    @hvalue (ascii "completed_ranges") (serializeRanges ranges) rfl,
    @hvalue (ascii "verified_chunks") (serializeVerifiedChunksSorted manifest.verifiedChunks) rfl]
  simp only [require_pos hid, fromHexString_toHex, require_pos hpaths, ok_bind,
    parseU64_decimal hfits.totalSize, parseU64_decimal hfits.chunkSize,
    parseU64_decimal hfits.createdAt, parseU64_decimal hfits.updatedAt, parseManifestState_name,
    parseChecksumAlgorithm_name, require_pos hchunk,
    parseRanges_serializeRanges hok.canonical hok.bounded hfits.totalSize,
    parseVerifiedChunks_serialize false hrecords hok.records, hder, require_pos hcompleted]
  rfl

/-- **A serialized manifest reads back**, whatever order its records were
written in: the parser returns it with the records sorted. -/
theorem parseDownloadManifest_withBodyChecksum
    (hversion : manifest.version = kDownloadManifestVersion)
    (hid : isValidTransferId manifest.transferId)
    (hpaths : manifest.paths.sourcePath ≠ [] ∧ manifest.paths.targetPath ≠ [] ∧
      manifest.tempPath ≠ [])
    (hchunk : manifest.chunkSize ≠ 0) (hfits : manifest.Fits)
    (hok : ManifestOk manifest ranges) :
    parseDownloadManifest (withBodyChecksum (buildManifestBody downloadFormat manifest ranges)) =
      .ok { manifest with
        completedRanges := ranges, verifiedChunks := sortedRecords manifest.verifiedChunks } := by
  have hread : readDownloadLines (withBodyChecksum (buildManifestBody downloadFormat manifest
      ranges)) = .ok (downloadLines manifest ranges
        (hex32 (crc32cOf (buildManifestBody downloadFormat manifest ranges)))) :=
    readLines_checksummedText (manifestEntries_bodyOk downloadFormat ranges hid)
      (notMem_hex32 (by decide))
  have hkeys : downloadKeys.forM (requireDownloadKey (downloadLines manifest ranges
      (hex32 (crc32cOf (buildManifestBody downloadFormat manifest ranges))))) = .ok () :=
    forM_eq_ok.mpr fun key hkey => requireDownloadKey_downloadLines _ _ _
      (by revert key; decide)
  rw [parseDownloadManifest, hread, ok_bind, hkeys, ok_bind,
    checkDownloadBody_downloadLines _ _ hversion, ok_bind]
  exact parseDownloadFields_downloadLines _ _ _ hid hpaths hchunk hfits hok _

end RoundTrip

/-! ### What the parser accepts -/

/-- **Whatever the parser accepts is well formed**: sorted records that cover
exactly the declared ranges. -/
theorem parseDownloadManifest_spec {text : Bytes} {manifest : DownloadManifest}
    (h : parseDownloadManifest text = .ok manifest) :
    manifest.Fits ∧ manifest.chunkSize ≠ 0 ∧ manifest.version = kDownloadManifestVersion ∧
      RecordsSorted manifest.verifiedChunks ∧ ManifestOk manifest manifest.completedRanges := by
  simp only [parseDownloadManifest, bind_eq_ok] at h
  obtain ⟨read, -, _, -, version, hversion, h⟩ := h
  simp only [parseDownloadFields, bind_eq_ok] at h
  obtain ⟨_, -, _, -, _, -, _, -, _, -, _, htotal, _, hchunk, _, hcreated, _, hupdated, _, -, _,
    -, _, hne, _, hranges, _, hverified, _, hderived, _, heqranges, heq⟩ := h
  obtain rfl := Except.ok.inj heq
  obtain ⟨hc, -⟩ := parseRanges_spec hranges
  obtain ⟨hsorted, hall, hok⟩ := parseVerifiedChunks_spec hverified
  obtain ⟨-, hder⟩ := completedFromVerified_spec hderived
  refine ⟨⟨parseU64_lt htotal, parseU64_lt hchunk, parseU64_lt hcreated, parseU64_lt hupdated,
    fun r hr => (hall r hr).1.1⟩, require_eq_ok.mp hne, ?_, hsorted,
    ⟨hok, fun r hr => (hall r hr).2, hc, ?_⟩⟩
  · simp only [checkDownloadBody, bind_eq_ok] at hversion
    obtain ⟨v, -, _, hv, _, -, _, -, hret⟩ := hversion
    obtain rfl := Except.ok.inj hret
    exact require_eq_ok.mp hv
  · rw [← require_eq_ok.mp heqranges]
    exact hder.covered_eq

end GridFlux
