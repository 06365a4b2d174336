/-
GridFlux/ManifestCorruption.lean

What the three manifest parsers make of a serialized manifest in whose body up
to four consecutive bytes have been replaced.

An edit stays inside one line (`exists_line_of_edit`), so the checksum line is
still there and its digits no longer fit the body (`crc32c_ne_of_burst`).  The
download and the tree parser always compare the two.  The transfer parser
compares them for version 2 only, so exactly the edit that turns the version
line into `manifest_version=1` gets through.
-/
import GridFlux.TransferManifest
import GridFlux.DownloadManifest
import GridFlux.TreeManifest

namespace GridFlux

open HalfOpen TextCodec

/-- The replacement of one to four consecutive bytes of a body, none of them a
line feed, by as many bytes that end no line. -/
structure BodyEdit (body : Bytes) where
  before : Bytes
  old : Bytes
  new : Bytes
  after : Bytes
  body_eq : body = before ++ old ++ after
  length_eq : old.length = new.length
  old_ne_nil : old ≠ []
  short : old.length ≤ 4
  changed : old ≠ new
  newline_old : newline ∉ old
  newline_new : newline ∉ new
  return_new : carriageReturn ∉ new

namespace BodyEdit

variable {body : Bytes} (edit : BodyEdit body)

def editedBody : Bytes := edit.before ++ edit.new ++ edit.after

/-- The edited text: the checksum line is the one of the body before the edit. -/
def text : Bytes := checksummedText edit.editedBody (hex32 (crc32cOf body))

theorem crc32c_ne : crc32cOf edit.editedBody ≠ crc32cOf body := by
  intro h
  refine crc32c_ne_of_burst edit.length_eq edit.short edit.changed (a := edit.before)
    (b := edit.after) ?_
  rw [← edit.body_eq]
  exact h.symm

end BodyEdit

/-! ### Transfer manifests -/

/-- Version 2 of an edited text is caught by the checksum. -/
theorem checkTransferBody_edited {body : Bytes} (edit : BodyEdit body)
    {values : List (Bytes × Bytes)} {u : Unit} :
    checkTransferBody ⟨values, edit.editedBody, hex32 (crc32cOf body)⟩ ≠ .ok u := by
  intro h
  simp only [checkTransferBody, bind_eq_ok, parseHex32_hex32] at h
  obtain ⟨_, -, _, heq, hcrc⟩ := h
  obtain rfl := Except.ok.inj heq
  exact edit.crc32c_ne (require_eq_ok.mp hcrc)

/-- The first line of a version 1 manifest. -/
def versionOneLine : Bytes := entryLine (ascii "manifest_version", decimal 1)

theorem versionOneLine_newline : versionOneLine ++ [newline] = ascii "manifest_version=1\n" := by
  decide

/-- The entries after the version line. -/
def entriesAfterVersion (manifest : TransferManifest) (ranges : List CompletedRange) :
    List (Bytes × Bytes) :=
  (manifestEntries transferFormat manifest ranges).tail

theorem manifestEntries_cons (manifest : TransferManifest) (ranges : List CompletedRange) :
    manifestEntries transferFormat manifest ranges =
      (ascii "manifest_version", decimal manifest.version) ::
        entriesAfterVersion manifest ranges := rfl

/-- A one-byte numeral that reads as one. -/
theorem eq_decimal_one {text name : Bytes} (hlen : text.length = 1)
    (h : parseU64 text name = .ok 1) : text = decimal 1 := by
  obtain ⟨x, rfl⟩ := List.length_eq_one_iff.mp hlen
  rw [parseU64, if_neg (List.cons_ne_nil x [])] at h
  split at h
  · have hone : x.toNat - 48 = 1 := by
      have hvalue : decimalValue [x] = 1 := Except.ok.inj h
      simpa [decimalValue] using hvalue
    have hx : x = 49 := UInt8.toNat_inj.mp (by show x.toNat = 49; omega)
    rw [hx]
    rfl
  · cases h

/-- An edited text that reads as version 1 starts with the version 1 line. -/
theorem versionOneLine_of_read {manifest : TransferManifest} {ranges : List CompletedRange}
    (hversion : manifest.version = kTransferManifestVersion)
    (hid : isValidTransferId manifest.transferId)
    (edit : BodyEdit (buildManifestBody transferFormat manifest ranges)) {read : ManifestLines}
    (hread : readTransferLines edit.text = .ok read)
    (hv1 : transferVersion read = .ok kTransferManifestVersionV1) :
    versionOneLine ++ [newline] <+: edit.editedBody := by
  obtain ⟨pre, e, e', post, u, v, hes, he, he', hbefore, hnodup, rfl⟩ :=
    readLines_edit (manifestEntries_bodyOk transferFormat ranges hid) (notMem_hex32 (by decide))
      edit.body_eq edit.length_eq edit.old_ne_nil edit.newline_old edit.newline_new hread
  simp only [transferVersion, bind_eq_ok] at hv1
  obtain ⟨_, hkey, value, hvalue, _, -, hone⟩ := hv1
  obtain rfl := Except.ok.inj hone
  rw [manifestEntries_cons, hversion] at hes
  rcases pre with - | ⟨first, pre⟩
  · -- the edited entry is the version line
    obtain ⟨rfl, rfl⟩ := List.cons.inj hes
    have hnot : ascii "manifest_version" ∉
        (entriesAfterVersion manifest ranges ++ [(checksumKey,
          hex32 (crc32cOf (buildManifestBody transferFormat manifest ranges)))]).map Prod.fst := by
      have hkeys := manifestEntries_keys transferFormat manifest ranges
      rw [manifestEntries_cons, List.map_cons] at hkeys
      have htail := (List.cons.inj hkeys).2
      rw [List.map_append, htail]
      show ascii "manifest_version" ∉ _ ++ [checksumKey]
      decide
    have hkey' : e'.1 = ascii "manifest_version" := by
      have hmem := requireKey_eq_ok.mp hkey
      simp only [List.nil_append, List.cons_append, List.map_cons, List.mem_cons] at hmem
      exact (hmem.resolve_right hnot).symm
    obtain ⟨key, value⟩ := e'
    obtain rfl : key = _ := hkey'
    have hlen : value.length = 1 := by
      have hlines : (entryLine (ascii "manifest_version", value)).length =
          (entryLine (ascii "manifest_version", decimal kTransferManifestVersion)).length := by
        rw [he, he', List.length_append, List.length_append, List.length_append,
          List.length_append, edit.length_eq]
      simp only [entryLine, List.length_append, List.length_cons] at hlines
      have htwo : (decimal kTransferManifestVersion).length = 1 := by decide
      omega
    have hdigits : value = decimal 1 := eq_decimal_one hlen hvalue
    have hafter : edit.after = v ++ newline :: bodyOf (entriesAfterVersion manifest ranges) := by
      have hbody : bodyOf (manifestEntries transferFormat manifest ranges) =
          edit.before ++ edit.old ++ edit.after := edit.body_eq
      rw [hbefore, manifestEntries_cons, hversion, bodyOf, List.map_cons, lines_cons, he] at hbody
      simp only [bodyOf, List.map_nil, lines_nil, List.nil_append, List.append_assoc] at hbody
      exact (List.append_cancel_left (List.append_cancel_left hbody)).symm
    refine ⟨bodyOf (entriesAfterVersion manifest ranges), ?_⟩
    rw [BodyEdit.editedBody, hafter, hbefore, versionOneLine, ← hdigits, he']
    simp [bodyOf]
  · -- the version line is the old one
    obtain ⟨rfl, -⟩ := List.cons.inj hes
    have htwo : parseU64 (decimal kTransferManifestVersion) (ascii "manifest_version") =
        .ok kTransferManifestVersionV1 := hvalue
    rw [parseU64_decimal (by decide)] at htwo
    exact absurd (Except.ok.inj htwo) (by decide)

/-- An edited body that starts with the version 1 line is the body of the same
manifest in version 1. -/
theorem editedBody_eq_of_versionOneLine {manifest : TransferManifest}
    {ranges : List CompletedRange} (hversion : manifest.version = kTransferManifestVersion)
    (hid : isValidTransferId manifest.transferId)
    (edit : BodyEdit (buildManifestBody transferFormat manifest ranges))
    (hstarts : versionOneLine ++ [newline] <+: edit.editedBody) :
    edit.editedBody = buildManifestBody transferFormat
      { manifest with version := kTransferManifestVersionV1 } ranges := by
  have hline : ∀ l ∈ (manifestEntries transferFormat manifest ranges).map entryLine,
      newline ∉ l := by
    intro l hl
    obtain ⟨e, he, rfl⟩ := List.mem_map.mp hl
    exact (manifestEntries_bodyOk transferFormat ranges hid).oneLine e he
  obtain ⟨pre, l, post, u, v, hls, hl, hbefore, hafter⟩ :=
    exists_line_of_edit hline edit.newline_old edit.old_ne_nil edit.body_eq
  rw [manifestEntries_cons, hversion, List.map_cons] at hls
  have hsame : ∀ {line rest : Bytes}, line.length = versionOneLine.length →
      edit.editedBody = line ++ newline :: rest → line = versionOneLine := by
    intro line rest hlength heq
    have hline : line ++ [newline] <+: edit.editedBody := ⟨rest, by rw [heq]; simp⟩
    have hle := List.prefix_of_prefix_length_le hstarts hline (by simp [hlength])
    exact (List.append_cancel_right (hle.eq_of_length (by simp [hlength]))).symm
  rcases pre with - | ⟨first, pre⟩
  · obtain ⟨rfl, rfl⟩ := List.cons.inj hls
    have hedited : edit.editedBody = (u ++ edit.new ++ v) ++ newline ::
        lines newline ((entriesAfterVersion manifest ranges).map entryLine) := by
      rw [BodyEdit.editedBody, hbefore, hafter]
      simp
    have hlength : (u ++ edit.new ++ v).length = versionOneLine.length := by
      have htwo : (entryLine (ascii "manifest_version", decimal kTransferManifestVersion)).length =
          versionOneLine.length := by decide
      rw [← htwo, hl]
      simp [edit.length_eq]
    rw [hedited, hsame hlength hedited, buildManifestBody, bodyOf, manifestEntries_cons,
      List.map_cons, lines_cons]
    rfl
  · -- the version line would be the old one
    obtain ⟨rfl, -⟩ := List.cons.inj hls
    have hedited : edit.editedBody =
        entryLine (ascii "manifest_version", decimal kTransferManifestVersion) ++ newline ::
          (lines newline pre ++ u ++ edit.new ++ edit.after) := by
      rw [BodyEdit.editedBody, hbefore]
      simp
    exact absurd (hsame (by decide) hedited) (by decide)

/-- An edited body of version 2 is rejected unless the edit has made its version
line that of version 1. -/
theorem parse_editedBody {manifest : TransferManifest} {ranges : List CompletedRange}
    (hversion : manifest.version = kTransferManifestVersion)
    (hid : isValidTransferId manifest.transferId)
    (hpaths : manifest.paths.outputPath ≠ [] ∧ manifest.tempPath ≠ [])
    (hchunk : manifest.chunkSize ≠ 0) (hfits : manifest.Fits) (hcanonical : Canonical ranges)
    (hbounded : ∀ r ∈ ranges, r.end ≤ manifest.totalSize)
    (edit : BodyEdit (buildManifestBody transferFormat manifest ranges)) :
    (∃ e, parseTransferManifest edit.text = .error e) ↔
      ¬(versionOneLine ++ [newline] <+: edit.editedBody) := by
  constructor
  · rintro ⟨e, herror⟩ hstarts
    have hok := parseTransferManifest_v1 { manifest with version := kTransferManifestVersionV1 }
      ranges (hex32 (crc32cOf (buildManifestBody transferFormat manifest ranges))) rfl hid hpaths
      hchunk ⟨hfits.totalSize, hfits.chunkSize, hfits.createdAt, hfits.updatedAt, hfits.chunkIds⟩
      hcanonical hbounded (notMem_hex32 (by decide))
    rw [BodyEdit.text, editedBody_eq_of_versionOneLine hversion hid edit hstarts, hok] at herror
    cases herror
  · intro hnot
    rcases hparse : parseTransferManifest edit.text with e | parsed
    · exact ⟨e, rfl⟩
    · exfalso
      simp only [parseTransferManifest, bind_eq_ok] at hparse
      obtain ⟨read, hread, version, hv, _, -, hrest⟩ := hparse
      by_cases htwo : version = kTransferManifestVersion
      · rw [if_pos htwo, bind_eq_ok] at hrest
        obtain ⟨_, hchecksum, -⟩ := hrest
        obtain ⟨pre, e, e', post, u, v, -, -, -, -, -, rfl⟩ :=
          readLines_edit (manifestEntries_bodyOk transferFormat ranges hid)
            (notMem_hex32 (by decide)) edit.body_eq edit.length_eq edit.old_ne_nil
            edit.newline_old edit.newline_new hread
        exact checkTransferBody_edited edit hchecksum
      · have hone : version = kTransferManifestVersionV1 := by
          simp only [transferVersion, bind_eq_ok] at hv
          obtain ⟨_, -, _, -, _, hor, heq⟩ := hv
          obtain rfl := Except.ok.inj heq
          exact (require_eq_ok.mp hor).resolve_right htwo
        rw [hone] at hv
        exact hnot (versionOneLine_of_read hversion hid edit hread hv)

/-- **Edited transfer manifests**: the parser rejects them unless the edit has
made the version line that of version 1. -/
theorem parseTransferManifest_edited {manifest : TransferManifest} {text : Bytes}
    (hfits : manifest.Fits) (h : serializeTransferManifest manifest = .ok text) :
    ∃ body, text = withBodyChecksum body ∧ ∀ edit : BodyEdit body,
      (∃ e, parseTransferManifest edit.text = .error e) ↔
        ¬(ascii "manifest_version=1\n" <+: edit.editedBody) := by
  simp only [serializeTransferManifest, serializeManifest, bind_eq_ok] at h
  obtain ⟨_, hcheck, completed, hcompleted, htext⟩ := h
  obtain ⟨hversion, hid, ⟨hpaths, htemp⟩, hchunk⟩ := (checkSerializable_eq_ok _).mp hcheck
  obtain ⟨-, hder⟩ := completedFromVerified_spec hcompleted
  refine ⟨_, (Except.ok.inj htext).symm, fun edit => ?_⟩
  rw [← versionOneLine_newline]
  exact @parse_editedBody
    { manifest with verifiedChunks := sortedRecords manifest.verifiedChunks } completed.ranges
    hversion hid ⟨fun hnil => hpaths (hnil ▸ List.mem_singleton_self _), htemp⟩ hchunk
    ⟨hfits.totalSize, hfits.chunkSize, hfits.createdAt, hfits.updatedAt,
      fun r hr => hfits.chunkIds r ((sortedRecords_perm _).mem_iff.mp hr)⟩
    hder.wellFormed.canonical hder.wellFormed.bounded edit

/-! ### Download manifests -/

/-- **Edited download manifests** are rejected. -/
theorem parseDownloadManifest_edited {manifest : DownloadManifest} {text : Bytes}
    (h : serializeDownloadManifest manifest = .ok text) :
    ∃ body, text = withBodyChecksum body ∧ ∀ edit : BodyEdit body,
      ∃ e, parseDownloadManifest edit.text = .error e := by
  simp only [serializeDownloadManifest, serializeManifest, bind_eq_ok] at h
  obtain ⟨_, hcheck, completed, -, htext⟩ := h
  obtain ⟨-, hid, -, -⟩ := (checkSerializable_eq_ok _).mp hcheck
  refine ⟨_, (Except.ok.inj htext).symm, fun edit => ?_⟩
  rcases hparse : parseDownloadManifest edit.text with e | parsed
  · exact ⟨e, rfl⟩
  · exfalso
    simp only [parseDownloadManifest, bind_eq_ok] at hparse
    obtain ⟨read, hread, _, -, version, hchecksum, -⟩ := hparse
    have hbodyOk : BodyOk (manifestEntries downloadFormat
        { manifest with verifiedChunks := sortedRecords manifest.verifiedChunks }
        completed.ranges) := manifestEntries_bodyOk downloadFormat completed.ranges hid
    obtain ⟨pre, e, e', post, u, v, -, -, -, -, -, rfl⟩ :=
      readLines_edit hbodyOk (notMem_hex32 (by decide)) edit.body_eq edit.length_eq
        edit.old_ne_nil edit.newline_old edit.newline_new hread
    simp only [checkDownloadBody, bind_eq_ok, parseHex32_hex32] at hchecksum
    obtain ⟨_, -, _, -, _, heq, _, hcrc, -⟩ := hchecksum
    obtain rfl := Except.ok.inj heq
    exact edit.crc32c_ne (require_eq_ok.mp hcrc)

/-! ### Tree manifests -/

/-- A line of which at most four consecutive bytes have changed is not a
checksum line, if it was too short for one or differed from it in the first and
in the fifth byte. -/
theorem edited_ne_checksumLine {u x y v : Bytes} (hlen : x.length = y.length)
    (hshort : x.length ≤ 4)
    (hunlike : (u ++ x ++ v).length ≤ checksumKey.length ∨
      ((u ++ x ++ v)[0]? ≠ checksumKey[0]? ∧ (u ++ x ++ v)[4]? ≠ checksumKey[4]?))
    (value : Bytes) : u ++ y ++ v ≠ entryLine (checksumKey, value) := by
  intro h
  have hkey : ∀ i < checksumKey.length, (u ++ y ++ v)[i]? = checksumKey[i]? := fun i hi => by
    rw [h, entryLine, List.getElem?_append_left hi]
  have hlong : checksumKey.length < (u ++ y ++ v).length := by
    rw [h]
    simp [entryLine]
  have hsame : (u ++ y ++ v).length = (u ++ x ++ v).length := by simp [hlen]
  rcases hunlike with hle | ⟨hfirst, hfifth⟩
  · exact absurd (hlong.trans_eq hsame) (not_lt.mpr hle)
  · rcases u with - | ⟨c, u⟩
    · -- the edit starts at the first byte, so the fifth is the old one
      refine hfifth (Eq.trans ?_ (hkey 4 (by decide)))
      simp only [List.nil_append]
      rw [List.getElem?_append_right (by omega), List.getElem?_append_right (by omega), hlen]
    · exact hfirst (hkey 0 (by decide))

/-- **Edited tree manifests** are rejected. -/
theorem parseTreeManifest_edited {manifest : TreeManifest} {text : Bytes}
    (h : serializeTreeManifest manifest = .ok text) :
    ∃ body, text = withBodyChecksum body ∧ ∀ edit : BodyEdit body,
      ∃ e, parseTreeManifest edit.text = .error e := by
  obtain ⟨hversion, hids, htext⟩ := serializeTreeManifest_eq_ok h
  refine ⟨_, htext, fun edit => ?_⟩
  rcases hparse : parseTreeManifest edit.text with e | parsed
  · exact ⟨e, rfl⟩
  · exfalso
    simp only [parseTreeManifest, bind_eq_ok] at hparse
    obtain ⟨read, hread, _, hchecksum, -⟩ := hparse
    have hnewline := LineEnd.notMem_treeEntries (Or.inl rfl) hids
    have hreturn := LineEnd.notMem_treeEntries (Or.inr rfl) hids
    have hunlike := treeEntries_unlike_checksum hversion
    have hline : ∀ l ∈ (treeEntries manifest).map entryLine, newline ∉ l := by
      intro l hl
      obtain ⟨e, he, rfl⟩ := List.mem_map.mp hl
      exact hnewline e he
    obtain ⟨pre, l, post, u, v, hls, hl, hbefore, hafter⟩ :=
      exists_line_of_edit hline edit.newline_old edit.old_ne_nil edit.body_eq
    have hmem : ∀ l' ∈ pre ++ l :: post, PlainLine l' ∧ newline ∉ l' := by
      intro l' hl'
      rw [← hls] at hl'
      obtain ⟨e, he, rfl⟩ := List.mem_map.mp hl'
      refine ⟨⟨entryLine_ne_nil e, hreturn e he, fun value => ?_⟩, hnewline e he⟩
      have hne := @edited_ne_checksumLine [] [] [] (entryLine e) rfl (by simp)
        (by simpa using hunlike e he) value
      simpa using hne
    have hplain : ∀ l' ∈ pre ++ (u ++ edit.new ++ v) :: post, PlainLine l' ∧ newline ∉ l' := by
      intro l' hl'
      rcases List.mem_append.mp hl' with hl' | hl'
      · exact hmem l' (by simp [hl'])
      · rcases List.mem_cons.mp hl' with rfl | hl'
        · obtain ⟨⟨-, hret, -⟩, hnl⟩ := hmem l (by simp)
          obtain ⟨e, he, hel⟩ : ∃ e ∈ treeEntries manifest, entryLine e = l :=
            List.mem_map.mp (hls ▸ by simp)
          have hlong := hunlike e he
          rw [hel, hl] at hlong
          rw [hl] at hret hnl
          simp only [List.mem_append, not_or] at hret hnl
          refine ⟨⟨?_, ?_, edited_ne_checksumLine edit.length_eq edit.short hlong⟩, ?_⟩
          · intro hnil
            have hnew : edit.new = [] := by
              simp only [List.append_eq_nil_iff] at hnil
              exact hnil.1.2
            exact edit.old_ne_nil (List.length_eq_zero_iff.mp (by simp [edit.length_eq, hnew]))
          · simp only [List.mem_append, not_or]
            exact ⟨⟨hret.1.1, edit.return_new⟩, hret.2⟩
          · simp only [List.mem_append, not_or]
            exact ⟨⟨hnl.1.1, edit.newline_new⟩, hnl.2⟩
        · exact hmem l' (by simp [hl'])
    have hedited : edit.editedBody = lines newline (pre ++ (u ++ edit.new ++ v) :: post) := by
      rw [BodyEdit.editedBody, hbefore, hafter]
      simp
    rw [BodyEdit.text, hedited] at hread
    obtain ⟨hbody, hexpected⟩ := readTreeLines_checksummedText hplain
      ⟨notMem_hex32 (by decide), notMem_hex32 (by decide)⟩ hread
    simp only [checkTreeBody, bind_eq_ok, hbody, hexpected, parseHex32_hex32] at hchecksum
    obtain ⟨_, -, _, -, _, heq, hcrc⟩ := hchecksum
    obtain rfl := Except.ok.inj heq
    refine edit.crc32c_ne ?_
    rw [hedited]
    exact (require_eq_ok.mp hcrc).symm

/-- **Corrupted manifests.**  Download and tree manifests with an edited body
are always rejected; a transfer manifest is rejected exactly when its edited
body does not start with the version line of version 1. -/
theorem edited_manifests_rejected (upload : TransferManifest) (download : DownloadManifest)
    (tree : TreeManifest) :
    (∀ text : Bytes, upload.Fits → serializeTransferManifest upload = .ok text →
      ∃ body, text = withBodyChecksum body ∧ ∀ edit : BodyEdit body,
        (∃ e, parseTransferManifest edit.text = .error e) ↔
          ¬(ascii "manifest_version=1\n" <+: edit.editedBody)) ∧
    (∀ text : Bytes, serializeDownloadManifest download = .ok text →
      ∃ body, text = withBodyChecksum body ∧ ∀ edit : BodyEdit body,
        ∃ e, parseDownloadManifest edit.text = .error e) ∧
    (∀ text : Bytes, serializeTreeManifest tree = .ok text →
      ∃ body, text = withBodyChecksum body ∧ ∀ edit : BodyEdit body,
        ∃ e, parseTreeManifest edit.text = .error e) :=
  ⟨fun _ => parseTransferManifest_edited, fun _ => parseDownloadManifest_edited,
    fun _ => parseTreeManifest_edited⟩

/-! ### The edit that gets through -/

/-- One chunk of one byte. -/
def oneChunkManifest : TransferManifest where
  version := kTransferManifestVersion
  transferId := ascii "t"
  paths := ⟨ascii "o"⟩
  tempPath := ascii "o.part.t"
  totalSize := 1
  chunkSize := 1
  checksumAlgorithm := .crc32c
  createdAtUnixNanos := 0
  updatedAtUnixNanos := 0
  state := .transferring
  completedRanges := [⟨0, 1⟩]
  verifiedChunks := [⟨0, 0, 1, ⟨.crc32c, 0x11111111#32⟩⟩]

def oneChunkBody : Bytes := buildManifestBody transferFormat oneChunkManifest [⟨0, 1⟩]

/-- The version digit `2` becomes `1`. -/
def versionDigitEdit : BodyEdit oneChunkBody where
  before := ascii "manifest_version="
  old := ascii "2"
  new := ascii "1"
  after := oneChunkBody.drop 18
  body_eq := by decide +kernel
  length_eq := rfl
  old_ne_nil := by decide
  short := by decide
  changed := by decide
  newline_old := by decide
  newline_new := by decide
  return_new := by decide

/-- The path byte `o` becomes `p`. -/
def pathEdit : BodyEdit oneChunkBody where
  before := ascii "manifest_version=2\ntransfer_id=t\noutput_path_hex="
  old := ascii "6f"
  new := ascii "70"
  after := oneChunkBody.drop 51
  body_eq := by decide +kernel
  length_eq := rfl
  old_ne_nil := by decide
  short := by decide
  changed := by decide
  newline_old := by decide
  newline_new := by decide
  return_new := by decide

def oneChunkDownload : DownloadManifest :=
  { oneChunkManifest with version := kDownloadManifestVersion, paths := ⟨ascii "s", ascii "o"⟩ }

def oneFileTree : TreeManifest where
  version := kTreeManifestVersion
  mode := .upload
  rootLogicalPath := ascii "r"
  checksumAlgorithm := .crc32c
  createdAtUnixNanos := 0
  updatedAtUnixNanos := 0
  files := [⟨ascii "f", 1, 0, ascii "t", .pending, []⟩]

/-- The first byte of a body that starts with the version key. -/
def firstByteEdit (body : Bytes) (h : body = ascii "m" ++ body.drop 1) : BodyEdit body where
  before := []
  old := ascii "m"
  new := ascii "n"
  after := body.drop 1
  body_eq := h
  length_eq := rfl
  old_ne_nil := by decide
  short := by decide
  changed := by decide
  newline_old := by decide
  newline_new := by decide
  return_new := by decide

theorem serialize_oneChunkManifest :
    serializeTransferManifest oneChunkManifest = .ok (withBodyChecksum oneChunkBody) := rfl

theorem oneChunkManifest_fits : oneChunkManifest.Fits :=
  ⟨by decide, by decide, by decide, by decide, by decide⟩

theorem serialize_oneChunkDownload : serializeDownloadManifest oneChunkDownload =
    .ok (withBodyChecksum (buildManifestBody downloadFormat oneChunkDownload [⟨0, 1⟩])) := rfl

theorem serialize_oneFileTree : serializeTreeManifest oneFileTree =
    .ok (withBodyChecksum (bodyWithoutChecksum oneFileTree)) := by
  have hok : (serializeTreeManifest oneFileTree).isOk = true := by decide +kernel
  rcases h : serializeTreeManifest oneFileTree with e | text
  · rw [h] at hok
    cases hok
  · rw [(serializeTreeManifest_eq_ok h).2.2]

theorem edited_manifests_rejected_three_times :
    (∃ e, parseTransferManifest pathEdit.text = .error e) ∧
    (∃ edit : BodyEdit (buildManifestBody downloadFormat oneChunkDownload [⟨0, 1⟩]),
      ∃ e, parseDownloadManifest edit.text = .error e) ∧
    (∃ edit : BodyEdit (bodyWithoutChecksum oneFileTree),
      ∃ e, parseTreeManifest edit.text = .error e) := by
  obtain ⟨htransfer, hdownload, htree⟩ :=
    edited_manifests_rejected oneChunkManifest oneChunkDownload oneFileTree
  refine ⟨?_, ⟨firstByteEdit _ (by decide +kernel), ?_⟩, ⟨firstByteEdit _ (by decide +kernel), ?_⟩⟩
  · obtain ⟨body, hbody, hedit⟩ := htransfer _ oneChunkManifest_fits serialize_oneChunkManifest
    obtain rfl := withBodyChecksum_injective hbody
    exact (hedit pathEdit).mpr (by decide +kernel)
  · obtain ⟨body, hbody, hedit⟩ := hdownload _ serialize_oneChunkDownload
    obtain rfl := withBodyChecksum_injective hbody
    exact hedit _
  · obtain ⟨body, hbody, hedit⟩ := htree _ serialize_oneFileTree
    obtain rfl := withBodyChecksum_injective hbody
    exact hedit _

/-- **A corrupted manifest that is accepted**: with the version digit changed
the body checksum is not looked at, although it no longer fits. -/
theorem edited_version_accepted :
    serializeTransferManifest oneChunkManifest = .ok (withBodyChecksum oneChunkBody) ∧
      crc32cOf versionDigitEdit.editedBody ≠ crc32cOf oneChunkBody ∧
      ∃ parsed, parseTransferManifest versionDigitEdit.text = .ok parsed := by
  refine ⟨serialize_oneChunkManifest, versionDigitEdit.crc32c_ne, ?_⟩
  rcases hparse : parseTransferManifest versionDigitEdit.text with e | parsed
  · have hnot := (@parse_editedBody oneChunkManifest [⟨0, 1⟩] rfl (by decide) (by decide)
      (by decide) oneChunkManifest_fits ⟨by simp, List.pairwise_singleton _ _⟩
      (by simp [oneChunkManifest]) versionDigitEdit).mp ⟨e, hparse⟩
    exact absurd (by decide +kernel) hnot
  · exact ⟨parsed, rfl⟩

end GridFlux
