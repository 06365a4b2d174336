/-
GridFlux/TreeManifest.lean

`core/tree/tree_manifest.cpp`: the manifest of a directory transfer, one record
a file.

The reader differs from the one of the two other manifests: it strips a
carriage return at the end of a line, keeps the first of two lines with one
key, and rebuilds the text under the checksum from the lines it has read.
`foldlM_readTreeLine` says what that loop gathers from plain lines.
-/
import GridFlux.ManifestText
import GridFlux.Manifest

namespace GridFlux

open TextCodec

/-! ### The record -/

inductive TreeTransferMode
  | upload
  | download
deriving DecidableEq, Repr

inductive TreeFileStatus
  | pending
  | transferring
  | completed
  | failed
  | changed
deriving DecidableEq, Repr

structure TreeFileRecord where
  relativePath : Bytes
  size : Nat
  mtimeUnixSeconds : Int
  transferId : Bytes
  status : TreeFileStatus
  error : Bytes
deriving DecidableEq, Repr

structure TreeManifest where
  version : Nat
  mode : TreeTransferMode
  rootLogicalPath : Bytes
  checksumAlgorithm : ChecksumAlgorithm
  createdAtUnixNanos : Nat
  updatedAtUnixNanos : Nat
  files : List TreeFileRecord
deriving DecidableEq, Repr

def kTreeManifestVersion : Nat := 1

def treeManifestPathForUpload (sourceDir : Bytes) : Bytes :=
  sourceDir ++ ascii ".gridflux.tree.upload.manifest"

def treeManifestPathForDownload (destDir : Bytes) : Bytes :=
  destDir ++ ascii ".gridflux.tree.download.manifest"

def treeTransferModeName : TreeTransferMode → Bytes
  | .upload => ascii "upload"
  | .download => ascii "download"

def parseTreeTransferMode (text : Bytes) : Except Status TreeTransferMode :=
  if text = ascii "upload" then .ok .upload
  else if text = ascii "download" then .ok .download
  else .error (.invalidArgument (ascii "invalid tree transfer mode"))

def treeFileStatusName : TreeFileStatus → Bytes
  | .pending => ascii "pending"
  | .transferring => ascii "transferring"
  | .completed => ascii "completed"
  | .failed => ascii "failed"
  | .changed => ascii "changed"

def parseTreeFileStatus (text : Bytes) : Except Status TreeFileStatus :=
  if text = ascii "pending" then .ok .pending
  else if text = ascii "transferring" then .ok .transferring
  else if text = ascii "completed" then .ok .completed
  else if text = ascii "failed" then .ok .failed
  else if text = ascii "changed" then .ok .changed
  else .error (.invalidArgument (ascii "invalid tree file status"))

/-- `isTreeTransferComplete`. -/
def isTreeTransferComplete (manifest : TreeManifest) : Bool :=
  manifest.files.all fun file => file.status = .completed

/-! ### Relative paths (`tree_scan.cpp`) -/

def slash : UInt8 := 47
def backslash : UInt8 := 92
def carriageReturn : UInt8 := 13

def isControlCharacter (value : UInt8) : Bool := value < 32 || value == 127

def isAsciiLetter (value : UInt8) : Bool :=
  (65 ≤ value && value ≤ 90) || (97 ≤ value && value ≤ 122)

def hasWindowsDrivePrefix : Bytes → Bool
  | drive :: separator :: _ => isAsciiLetter drive && separator == colon
  | _ => false

/-- The parts a `std::filesystem::path` iterates over: runs of slashes count as
one, and a slash at the end is followed by an empty part. -/
def pathParts (path : Bytes) : List Bytes :=
  (pieces slash path).filter (· ≠ []) ++ if path.getLast? = some slash then [[]] else []

/-- `validateTreeRelativePath`. -/
def validateTreeRelativePath (relativePath : Bytes) : Except Status Unit := do
  require (relativePath ≠ []) (.invalidArgument (ascii "tree relative path must not be empty"))
  require (relativePath.head? ≠ some slash ∧ relativePath.head? ≠ some backslash)
    (.invalidArgument (ascii "tree relative path must be relative"))
  require (backslash ∉ relativePath)
    (.invalidArgument (ascii "tree relative path must use forward slashes"))
  require (relativePath.all (!isControlCharacter ·))
    (.invalidArgument (ascii "tree relative path contains control character"))
  require (!hasWindowsDrivePrefix relativePath)
    (.invalidArgument (ascii "tree relative path must not use drive prefix"))
  require (∀ part ∈ pathParts relativePath, part ≠ [] ∧ part ≠ ascii "." ∧ part ≠ ascii "..")
    (.invalidArgument (ascii "tree relative path contains invalid segment"))

/-! ### The serializer -/

/-- An `int64_t` printed by `operator<<`. -/
def signedDecimal (value : Int) : Bytes :=
  if value < 0 then dash :: decimal value.natAbs else decimal value.toNat

/-- `parseI64`: `std::from_chars` over the whole text. -/
def parseI64 (text name : Bytes) : Except Status Int :=
  if text = [] then .error (.invalidArgument (name ++ ascii " must not be empty"))
  else
    match text with
    | [] => .error (.invalidArgument (name ++ ascii " must be a decimal integer"))
    | first :: digits =>
        if first = dash then
          if digits ≠ [] ∧ digits.all isDigit ∧ decimalValue digits ≤ 2 ^ 63 then
            .ok (-(decimalValue digits : Int))
          else .error (.invalidArgument (name ++ ascii " must be a decimal integer"))
        else if (first :: digits).all isDigit ∧ decimalValue (first :: digits) < 2 ^ 63 then
          .ok (decimalValue (first :: digits) : Int)
        else .error (.invalidArgument (name ++ ascii " must be a decimal integer"))

/-- The order in which the files are kept. -/
def sortedFiles (files : List TreeFileRecord) : List TreeFileRecord :=
  files.insertionSort fun left right => left.relativePath ≤ right.relativePath

def treeFileText (file : TreeFileRecord) : Bytes :=
  join colon [toHex file.relativePath, decimal file.size, signedDecimal file.mtimeUnixSeconds,
    file.transferId, treeFileStatusName file.status, toHex file.error]

/-- `serializeFiles`. -/
def serializeFiles (files : List TreeFileRecord) : Bytes :=
  join comma ((sortedFiles files).map treeFileText)

/-- The entries `bodyWithoutChecksum` writes, in order. -/
def treeEntries (manifest : TreeManifest) : List (Bytes × Bytes) :=
  [(ascii "manifest_version", decimal manifest.version),
    (ascii "mode", treeTransferModeName manifest.mode),
    (ascii "root_logical_path_hex", toHex manifest.rootLogicalPath),
    (ascii "checksum_algorithm", checksumAlgorithmName manifest.checksumAlgorithm),
    (ascii "created_at_unix_ns", decimal manifest.createdAtUnixNanos),
    (ascii "updated_at_unix_ns", decimal manifest.updatedAtUnixNanos),
    (ascii "files", serializeFiles manifest.files)]

/-- `bodyWithoutChecksum`. -/
def bodyWithoutChecksum (manifest : TreeManifest) : Bytes := bodyOf (treeEntries manifest)

/-- `serializeTreeManifest`. -/
def serializeTreeManifest (manifest : TreeManifest) : Except Status Bytes := do
  require (manifest.version = kTreeManifestVersion)
    (.invalidArgument (ascii "unsupported tree manifest version"))
  require (manifest.rootLogicalPath ≠ [])
    (.invalidArgument (ascii "tree manifest root path must not be empty"))
  manifest.files.forM fun file => do
    validateTreeRelativePath file.relativePath
    require (isValidTransferId file.transferId)
      (.invalidArgument (ascii "tree file transfer_id is invalid"))
  return withBodyChecksum (bodyWithoutChecksum manifest)

/-! ### The parser -/

/-- One record of `parseFiles`. -/
def parseTreeFile (item : Bytes) : Except Status TreeFileRecord :=
  match (pieces colon item) ++ (if item = [] ∨ item.getLast? = some colon then [[]] else []) with
  | [relativeText, sizeText, mtimeText, transferId, statusText, errorText] => do
      let relativePath ← fromHexString relativeText
      validateTreeRelativePath relativePath
      let size ← parseU64 sizeText (ascii "tree file size")
      let mtime ← parseI64 mtimeText (ascii "tree file mtime")
      require (isValidTransferId transferId)
        (.invalidArgument (ascii "tree file transfer_id is invalid"))
      let status ← parseTreeFileStatus statusText
      let error ← fromHexString errorText
      return ⟨relativePath, size, mtime, transferId, status, error⟩
  | _ => .error (.invalidArgument (ascii "tree file record must have 6 fields"))

/-- `parseFiles`. -/
def parseFiles (text : Bytes) : Except Status (List TreeFileRecord) := do
  let records ← (pieces comma text).mapM parseTreeFile
  require (((sortedFiles records).map TreeFileRecord.relativePath).Nodup)
    (.invalidArgument (ascii "tree manifest contains duplicate file"))
  return sortedFiles records

/-- `std::getline` leaves the carriage return of a line, the parser drops it. -/
def stripCarriageReturn (line : Bytes) : Bytes :=
  if line.getLast? = some carriageReturn then line.dropLast else line

/-- One round of the `getline` loop; of two lines with one key the first
counts. -/
def readTreeLine (read : ManifestLines) (line : Bytes) : Except Status ManifestLines :=
  if stripCarriageReturn line = [] then .ok read
  else
    match splitFirst equalsSign (stripCarriageReturn line) with
    | none => .error (.invalidArgument (ascii "tree manifest line missing '='"))
    | some (key, value) =>
        if key = checksumKey then .ok { read with expectedBodyChecksum := value }
        else
          .ok { read with
            values := read.values ++ [(key, value)]
            bodyText := read.bodyText ++ stripCarriageReturn line ++ [newline] }

def readTreeLines (text : Bytes) : Except Status ManifestLines :=
  (pieces newline text).foldlM readTreeLine ⟨[], [], []⟩

def treeKeys : List Bytes :=
  [ascii "manifest_version", ascii "mode", ascii "root_logical_path_hex",
    ascii "checksum_algorithm", ascii "created_at_unix_ns", ascii "updated_at_unix_ns",
    ascii "files"]

/-- The body checksum. -/
def checkTreeBody (read : ManifestLines) : Except Status Unit := do
  treeKeys.forM (read.requireKey (ascii "tree manifest missing key: "))
  require (read.expectedBodyChecksum ≠ [])
    (.invalidArgument (ascii "tree manifest missing body checksum"))
  let expected ← parseHex32 read.expectedBodyChecksum (ascii "tree manifest body checksum")
  require (expected = crc32cOf read.bodyText)
    (.invalidArgument (ascii "tree manifest body checksum mismatch"))

def parseTreeFields (read : ManifestLines) : Except Status TreeManifest := do
  let version ← parseU64 (read.value (ascii "manifest_version")) (ascii "tree manifest version")
  require (version = kTreeManifestVersion)
    (.invalidArgument (ascii "unsupported tree manifest version"))
  let mode ← parseTreeTransferMode (read.value (ascii "mode"))
  let rootLogicalPath ← fromHexString (read.value (ascii "root_logical_path_hex"))
  let algorithm ← parseChecksumAlgorithm (read.value (ascii "checksum_algorithm"))
  let createdAt ← parseU64 (read.value (ascii "created_at_unix_ns")) (ascii "created_at_unix_ns")
  let updatedAt ← parseU64 (read.value (ascii "updated_at_unix_ns")) (ascii "updated_at_unix_ns")
  let files ← parseFiles (read.value (ascii "files"))
  return ⟨version, mode, rootLogicalPath, algorithm, createdAt, updatedAt, files⟩

/-- `parseTreeManifest`. -/
def parseTreeManifest (text : Bytes) : Except Status TreeManifest := do
  let read ← readTreeLines text
  checkTreeBody read
  parseTreeFields read

/-! ### What the reading loop gathers -/

/-- A line the loop puts under the checksum as it is. -/
structure PlainLine (line : Bytes) : Prop where
  ne_nil : line ≠ []
  noReturn : carriageReturn ∉ line
  notChecksum : ∀ value, line ≠ entryLine (checksumKey, value)

theorem stripCarriageReturn_of_notMem {line : Bytes} (h : carriageReturn ∉ line) :
    stripCarriageReturn line = line := by
  rw [stripCarriageReturn, if_neg fun hlast => h (List.mem_of_getLast? hlast)]

theorem readTreeLine_plain {line : Bytes} (h : PlainLine line) {read read' : ManifestLines}
    (hok : readTreeLine read line = .ok read') :
    read'.bodyText = read.bodyText ++ line ++ [newline] ∧
      read'.expectedBodyChecksum = read.expectedBodyChecksum := by
  rw [readTreeLine, stripCarriageReturn_of_notMem h.noReturn, if_neg h.ne_nil] at hok
  rcases hsplit : splitFirst equalsSign line with - | ⟨key, value⟩
  · simp [hsplit] at hok
  · have hkey : key ≠ checksumKey := by
      rintro rfl
      exact h.notChecksum value (splitFirst_eq_some.mp hsplit).1
    simp only [hsplit, if_neg hkey, Except.ok.injEq] at hok
    subst hok
    exact ⟨rfl, rfl⟩

/-- Plain lines end up under the checksum one after the other. -/
theorem foldlM_readTreeLine {ls : List Bytes} (h : ∀ l ∈ ls, PlainLine l)
    {read read' : ManifestLines} (hok : ls.foldlM readTreeLine read = .ok read') :
    read'.bodyText = read.bodyText ++ lines newline ls ∧
      read'.expectedBodyChecksum = read.expectedBodyChecksum := by
  induction ls generalizing read with
  | nil =>
      obtain rfl := Except.ok.inj hok
      simp
  | cons l ls ih =>
      rw [List.foldlM_cons, bind_eq_ok] at hok
      obtain ⟨mid, hstep, hrest⟩ := hok
      obtain ⟨hbody, hexpected⟩ := readTreeLine_plain (h l (by simp)) hstep
      obtain ⟨hbody', hexpected'⟩ := ih (fun l' hl' => h l' (by simp [hl'])) hrest
      exact ⟨by rw [hbody', hbody, lines_cons]; simp, hexpected'.trans hexpected⟩

/-- A text of plain lines with a checksum line: the body is the text before
that line. -/
theorem readTreeLines_checksummedText {ls : List Bytes} {digits : Bytes}
    (h : ∀ l ∈ ls, PlainLine l ∧ newline ∉ l) (hd : newline ∉ digits ∧ carriageReturn ∉ digits)
    {read : ManifestLines}
    (hok : readTreeLines (checksummedText (lines newline ls) digits) = .ok read) :
    read.bodyText = lines newline ls ∧ read.expectedBodyChecksum = digits := by
  have htext : checksummedText (lines newline ls) digits =
      lines newline (ls ++ [entryLine (checksumKey, digits)]) := by simp [checksummedText]
  have hline : ∀ l ∈ ls ++ [entryLine (checksumKey, digits)], newline ∉ l := by
    intro l hl
    rcases List.mem_append.mp hl with hl | hl
    · exact (h l hl).2
    · obtain rfl := List.mem_singleton.mp hl
      exact newline_notMem_checksumLine hd.1
  have hreturn : carriageReturn ∉ entryLine (checksumKey, digits) := by
    simp only [entryLine, List.mem_append, List.mem_cons, not_or]
    exact ⟨by decide, by decide, hd.2⟩
  rw [readTreeLines, htext, pieces_lines newline hline, List.foldlM_append, bind_eq_ok] at hok
  obtain ⟨mid, hbody, hlast⟩ := hok
  obtain ⟨hmid, -⟩ := foldlM_readTreeLine (fun l hl => (h l hl).1) hbody
  rw [List.foldlM_cons, bind_eq_ok] at hlast
  obtain ⟨mid', hstep, hnil⟩ := hlast
  obtain rfl := Except.ok.inj hnil
  rw [readTreeLine, stripCarriageReturn_of_notMem hreturn, if_neg (entryLine_ne_nil _),
    splitFirst_entryLine checksumKey_ok.2] at hstep
  obtain rfl := Except.ok.inj hstep
  exact ⟨by simpa using hmid, rfl⟩

/-! ### The lines of a serialized manifest -/

theorem serializeTreeManifest_eq_ok {manifest : TreeManifest} {text : Bytes}
    (h : serializeTreeManifest manifest = .ok text) :
    manifest.version = kTreeManifestVersion ∧
      (∀ file ∈ manifest.files, isValidTransferId file.transferId) ∧
      text = withBodyChecksum (bodyWithoutChecksum manifest) := by
  simp only [serializeTreeManifest, bind_eq_ok] at h
  obtain ⟨_, hversion, _, -, _, hfiles, htext⟩ := h
  refine ⟨require_eq_ok.mp hversion, fun file hfile => ?_, (Except.ok.inj htext).symm⟩
  have hone := forM_eq_ok.mp hfiles file hfile
  simp only [bind_eq_ok] at hone
  obtain ⟨_, -, hid⟩ := hone
  exact require_eq_ok.mp hid

/-- The two bytes that end a line. -/
def LineEnd (x : UInt8) : Prop := x = newline ∨ x = carriageReturn

theorem LineEnd.notMem_transferId {x : UInt8} (hx : LineEnd x) {transferId : Bytes}
    (h : isValidTransferId transferId) : x ∉ transferId := by
  intro hmem
  simp only [isValidTransferId, Bool.and_eq_true, List.all_eq_true] at h
  have hchar := h.2 x hmem
  revert hchar
  rcases hx with rfl | rfl
  · decide
  · decide

theorem LineEnd.notMem_decimal {x : UInt8} (hx : LineEnd x) (n : Nat) : x ∉ decimal n := by
  refine GridFlux.notMem_decimal ?_
  rcases hx with rfl | rfl
  · decide
  · decide

theorem LineEnd.notMem_toHex {x : UInt8} (hx : LineEnd x) (text : Bytes) : x ∉ toHex text := by
  refine GridFlux.notMem_toHex ?_
  rcases hx with rfl | rfl
  · decide
  · decide

theorem LineEnd.notMem_signedDecimal {x : UInt8} (hx : LineEnd x) (value : Int) :
    x ∉ signedDecimal value := by
  have hdash : x ≠ dash := by
    rcases hx with rfl | rfl
    · decide
    · decide
  rw [signedDecimal]
  split
  · exact List.not_mem_cons_of_ne_of_not_mem hdash (hx.notMem_decimal _)
  · exact hx.notMem_decimal _

theorem LineEnd.notMem_treeFileStatusName {x : UInt8} (hx : LineEnd x)
    (status : TreeFileStatus) : x ∉ treeFileStatusName status := by
  cases status with
  | pending => rcases hx with rfl | rfl <;> decide
  | transferring => rcases hx with rfl | rfl <;> decide
  | completed => rcases hx with rfl | rfl <;> decide
  | failed => rcases hx with rfl | rfl <;> decide
  | changed => rcases hx with rfl | rfl <;> decide

theorem LineEnd.notMem_serializeFiles {x : UInt8} (hx : LineEnd x) {files : List TreeFileRecord}
    (h : ∀ file ∈ files, isValidTransferId file.transferId) : x ∉ serializeFiles files := by
  have hseparator : x ≠ comma ∧ x ≠ colon := by
    rcases hx with rfl | rfl
    · decide
    · decide
  intro hmem
  rcases mem_join hmem with heq | ⟨text, htext, hmem⟩
  · exact hseparator.1 heq
  · obtain ⟨file, hfile, rfl⟩ := List.mem_map.mp htext
    rcases mem_join hmem with heq | ⟨field, hfield, hmem⟩
    · exact hseparator.2 heq
    · have hid := h file ((List.perm_insertionSort _ files).mem_iff.mp hfile)
      simp only [List.mem_cons, List.not_mem_nil, or_false] at hfield
      rcases hfield with rfl | rfl | rfl | rfl | rfl | rfl
      · exact hx.notMem_toHex _ hmem
      · exact hx.notMem_decimal _ hmem
      · exact hx.notMem_signedDecimal _ hmem
      · exact hx.notMem_transferId hid hmem
      · exact hx.notMem_treeFileStatusName _ hmem
      · exact hx.notMem_toHex _ hmem

/-- No line of a serialized tree manifest holds a line end. -/
theorem LineEnd.notMem_treeEntries {x : UInt8} (hx : LineEnd x) {manifest : TreeManifest}
    (h : ∀ file ∈ manifest.files, isValidTransferId file.transferId) :
    ∀ e ∈ treeEntries manifest, x ∉ entryLine e := by
  have hentry : ∀ {key value : Bytes}, x ∉ key → x ∉ value → x ∉ entryLine (key, value) := by
    intro key value hkey hvalue
    have hequals : x ≠ equalsSign := by
      rcases hx with rfl | rfl
      · decide
      · decide
    simp only [entryLine, List.mem_append, List.mem_cons, not_or]
    exact ⟨hkey, hequals, hvalue⟩
  have hkey : ∀ key ∈ treeKeys, x ∉ key := by
    rcases hx with rfl | rfl
    · decide
    · decide
  intro e he
  simp only [treeEntries, List.mem_cons, List.not_mem_nil, or_false] at he
  rcases he with rfl | rfl | rfl | rfl | rfl | rfl | rfl
  · exact hentry (hkey _ (by simp [treeKeys])) (hx.notMem_decimal _)
  · refine hentry (hkey _ (by simp [treeKeys])) ?_
    cases manifest.mode with
    | upload => rcases hx with rfl | rfl <;> decide
    | download => rcases hx with rfl | rfl <;> decide
  · exact hentry (hkey _ (by simp [treeKeys])) (hx.notMem_toHex _)
  · refine hentry (hkey _ (by simp [treeKeys])) ?_
    cases manifest.checksumAlgorithm with
    | none => rcases hx with rfl | rfl <;> decide
    | crc32c => rcases hx with rfl | rfl <;> decide
  · exact hentry (hkey _ (by simp [treeKeys])) (hx.notMem_decimal _)
  · exact hentry (hkey _ (by simp [treeKeys])) (hx.notMem_decimal _)
  · exact hentry (hkey _ (by simp [treeKeys])) (hx.notMem_serializeFiles h)

/-- Every body line is shorter than a checksum line, or differs from it in the
first and in the fifth byte. -/
theorem treeEntries_unlike_checksum {manifest : TreeManifest}
    (hversion : manifest.version = kTreeManifestVersion) :
    ∀ e ∈ treeEntries manifest, (entryLine e).length ≤ checksumKey.length ∨
      ((entryLine e)[0]? ≠ checksumKey[0]? ∧ (entryLine e)[4]? ≠ checksumKey[4]?) := by
  intro e he
  simp only [treeEntries, List.mem_cons, List.not_mem_nil, or_false] at he
  rcases he with rfl | rfl | rfl | rfl | rfl | rfl | rfl
  · rw [hversion]
    exact Or.inl (by decide)
  · cases manifest.mode with
    | upload => exact Or.inl (by decide)
    | download => exact Or.inl (by decide)
  · exact Or.inr ⟨by simp [entryLine, ascii, checksumKey], by simp [entryLine, ascii, checksumKey]⟩
  · exact Or.inr ⟨by simp [entryLine, ascii, checksumKey], by simp [entryLine, ascii, checksumKey]⟩
  · exact Or.inr ⟨by simp [entryLine, ascii, checksumKey], by simp [entryLine, ascii, checksumKey]⟩
  · exact Or.inr ⟨by simp [entryLine, ascii, checksumKey], by simp [entryLine, ascii, checksumKey]⟩
  · exact Or.inr ⟨by simp [entryLine, ascii, checksumKey], by simp [entryLine, ascii, checksumKey]⟩

end GridFlux
