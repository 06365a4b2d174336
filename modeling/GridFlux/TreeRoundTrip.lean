/-
GridFlux/TreeRoundTrip.lean

What `parseTreeManifest` makes of the text `serializeTreeManifest` writes.

Line by line and field by field the parser inverts the serializer.  The one
check it makes on top is that no two files have the same path: the serializer
does not look for that.  Hence a written manifest comes back, with its files
sorted, exactly if its paths are distinct (`tree_roundTrip_iff`).
-/
import GridFlux.TreeManifest

namespace GridFlux

open TextCodec

/-! ### The fields of a record -/

/-- The split loop of `parseFiles` cuts a joined list of fields into the
fields, also when the last one is empty. -/
theorem pieces_join_closed {sep : UInt8} {fields : List Bytes} (hne : fields ≠ [])
    (h : ∀ field ∈ fields, sep ∉ field) :
    pieces sep (join sep fields) ++
      (if join sep fields = [] ∨ (join sep fields).getLast? = some sep then [[]] else []) =
        fields := by
  induction fields with
  | nil => exact absurd rfl hne
  | cons field fields ih =>
      have hfield := h field List.mem_cons_self
      cases fields with
      | nil =>
          rw [join]
          by_cases hempty : field = []
          · subst hempty
            rfl
          · have hlast : field.getLast? ≠ some sep := by
              intro hlast
              exact hfield (List.mem_of_getLast? hlast)
            rw [pieces_of_notMem sep hfield hempty, if_neg (not_or.mpr ⟨hempty, hlast⟩)]
            rfl
      | cons next rest =>
          have hrest := ih (List.cons_ne_nil _ _) fun f hf => h f (List.mem_cons_of_mem _ hf)
          rw [join, pieces_append_sep sep hfield, List.cons_append]
          apply congrArg (field :: ·)
          refine Eq.trans ?_ hrest
          apply congrArg (pieces sep (join sep (next :: rest)) ++ ·)
          -- only the end of the text decides whether the last field is empty
          generalize join sep (next :: rest) = text
          have hcons : field ++ sep :: text ≠ [] := by simp
          cases text with
          | nil => simp
          | cons x text =>
              have hlast : (field ++ sep :: x :: text).getLast? = (x :: text).getLast? := by
                rw [List.getLast?_append_cons, List.getLast?_cons_cons]
              rw [hlast]
              simp [hcons]

theorem parseI64_signedDecimal {value : Int} (hlow : -2 ^ 63 ≤ value) (hhigh : value < 2 ^ 63)
    (name : Bytes) : parseI64 (signedDecimal value) name = .ok value := by
  have hdigits : ∀ n : Nat, (decimal n).all isDigit = true := by
    intro n
    rw [List.all_eq_true]
    exact fun _ hb => isDigit_of_mem_decimal hb
  rw [signedDecimal]
  split
  · rename_i hneg
    rw [parseI64, if_neg (List.cons_ne_nil _ _), if_pos rfl, decimalValue_decimal, if_pos ⟨decimal_ne_nil _, hdigits _, by omega⟩]
    congr 1
    omega
  · rename_i hnonneg
    have hall := hdigits value.toNat
    have hvalue := decimalValue_decimal value.toNat
    rcases hdecimal : decimal value.toNat with - | ⟨first, digits⟩
    · exact absurd hdecimal (decimal_ne_nil _)
    · rw [hdecimal] at hall hvalue
      -- a digit is not a dash
      have hdash : first ≠ dash := by
        rintro rfl
        rw [List.all_cons, Bool.and_eq_true] at hall
        exact absurd hall.1 (by decide)
      rw [parseI64, if_neg (List.cons_ne_nil _ _), if_neg hdash, hvalue, if_pos ⟨hall, by omega⟩]
      congr 1
      omega

@[simp] theorem parseTreeFileStatus_name (status : TreeFileStatus) :
    parseTreeFileStatus (treeFileStatusName status) = .ok status := by
  cases status with
  | pending => rfl
  | transferring => rfl
  | completed => rfl
  | failed => rfl
  | changed => rfl

@[simp] theorem parseTreeTransferMode_name (mode : TreeTransferMode) :
    parseTreeTransferMode (treeTransferModeName mode) = .ok mode := by
  cases mode with
  | upload => rfl
  | download => rfl

/-- A separator of the record list occurs in no field. -/
theorem notMem_treeFields {x : UInt8} (hx : x = colon ∨ x = comma) {file : TreeFileRecord}
    (hid : isValidTransferId file.transferId) :
    ∀ field ∈ [toHex file.relativePath, decimal file.size, signedDecimal file.mtimeUnixSeconds,
      file.transferId, treeFileStatusName file.status, toHex file.error], x ∉ field := by
  have hhex : isHexDigit x = false := by
    rcases hx with rfl | rfl
    · rfl
    · rfl
  have hdigit : isDigit x = false := by
    rcases hx with rfl | rfl
    · rfl
    · rfl
  intro field hfield
  simp only [List.mem_cons, List.not_mem_nil, or_false] at hfield
  rcases hfield with rfl | rfl | rfl | rfl | rfl | rfl
  · exact notMem_toHex hhex
  · exact notMem_decimal hdigit
  · have hdash : x ≠ dash := by
      rcases hx with rfl | rfl
      · decide
      · decide
    rw [signedDecimal]
    split
    · exact List.not_mem_cons_of_ne_of_not_mem hdash (notMem_decimal hdigit)
    · exact notMem_decimal hdigit
  · intro hmem
    simp only [isValidTransferId, Bool.and_eq_true, List.all_eq_true] at hid
    have hchar := hid.2 x hmem
    revert hchar
    rcases hx with rfl | rfl
    · decide
    · decide
  · cases file.status with
    | pending => rcases hx with rfl | rfl <;> decide
    | transferring => rcases hx with rfl | rfl <;> decide
    | completed => rcases hx with rfl | rfl <;> decide
    | failed => rcases hx with rfl | rfl <;> decide
    | changed => rcases hx with rfl | rfl <;> decide
  · exact notMem_toHex hhex

/-- The numbers of a record fit their fields. -/
structure TreeFileRecord.Fits (file : TreeFileRecord) : Prop where
  size : file.size < 2 ^ 64
  mtimeLow : -2 ^ 63 ≤ file.mtimeUnixSeconds
  mtimeHigh : file.mtimeUnixSeconds < 2 ^ 63

/-- **One record** comes back. -/
theorem parseTreeFile_treeFileText {file : TreeFileRecord} (hfits : file.Fits)
    (hpath : validateTreeRelativePath file.relativePath = .ok ())
    (hid : isValidTransferId file.transferId) :
    parseTreeFile (treeFileText file) = .ok file := by
  have hfields := pieces_join_closed (List.cons_ne_nil _ _) (notMem_treeFields (.inl rfl) hid)
  rw [parseTreeFile, treeFileText, hfields]
  dsimp only
  rw [fromHexString_toHex, ok_bind, hpath, ok_bind, parseU64_decimal hfits.size, ok_bind,
    parseI64_signedDecimal hfits.mtimeLow hfits.mtimeHigh, ok_bind, require_pos hid, ok_bind,
    parseTreeFileStatus_name, ok_bind, fromHexString_toHex]
  rfl

/-! ### The files -/

/-- The order of the files. -/
def pathPrecedes (left right : TreeFileRecord) : Prop := left.relativePath ≤ right.relativePath

instance : DecidableRel pathPrecedes := fun left right =>
  inferInstanceAs (Decidable (left.relativePath ≤ right.relativePath))

instance : Std.Total pathPrecedes := ⟨fun left right =>
  List.le_total left.relativePath right.relativePath⟩

instance : IsTrans TreeFileRecord pathPrecedes := ⟨fun _ _ _ h h' => List.le_trans h h'⟩

theorem sortedFiles_perm (files : List TreeFileRecord) : (sortedFiles files).Perm files :=
  List.perm_insertionSort _ _

@[simp] theorem sortedFiles_sortedFiles (files : List TreeFileRecord) :
    sortedFiles (sortedFiles files) = sortedFiles files := by
  have hsorted : (sortedFiles files).Pairwise pathPrecedes :=
    @List.pairwise_insertionSort _ pathPrecedes _ _ _ files
  exact List.Pairwise.insertionSort_eq hsorted

theorem mapM_parseTreeFile {files : List TreeFileRecord}
    (h : ∀ file ∈ files, parseTreeFile (treeFileText file) = .ok file) :
    (files.map treeFileText).mapM parseTreeFile = .ok files := by
  induction files with
  | nil => rfl
  | cons file files ih =>
      rw [List.map_cons, List.mapM_cons, h file List.mem_cons_self, ok_bind,
        ih fun f hf => h f (List.mem_cons_of_mem _ hf), ok_bind]
      rfl

/-- **The files** come back sorted, unless two have the same path. -/
theorem parseFiles_serializeFiles {files : List TreeFileRecord}
    (h : ∀ file ∈ files, parseTreeFile (treeFileText file) = .ok file)
    (hid : ∀ file ∈ files, isValidTransferId file.transferId) :
    parseFiles (serializeFiles files) =
      if (files.map TreeFileRecord.relativePath).Nodup then .ok (sortedFiles files)
      else .error (.invalidArgument (ascii "tree manifest contains duplicate file")) := by
  have hmem : ∀ file ∈ sortedFiles files, file ∈ files := fun file hfile =>
    (sortedFiles_perm files).mem_iff.mp hfile
  have hpieces : pieces comma (serializeFiles files) = (sortedFiles files).map treeFileText := by
    apply pieces_join
    intro text htext
    obtain ⟨file, hfile, rfl⟩ := List.mem_map.mp htext
    constructor
    · intro hcomma
      rcases mem_join hcomma with heq | ⟨field, hfield, hcomma⟩
      · cases heq
      · exact notMem_treeFields (.inr rfl) (hid file (hmem file hfile)) field hfield hcomma
    · show join colon (_ :: _ :: _) ≠ []
      rw [join]
      simp
  have hnodup : ((sortedFiles files).map TreeFileRecord.relativePath).Nodup ↔
      (files.map TreeFileRecord.relativePath).Nodup :=
    ((sortedFiles_perm files).map TreeFileRecord.relativePath).nodup_iff
  rw [parseFiles, hpieces, mapM_parseTreeFile fun file hfile => h file (hmem file hfile), ok_bind,
    sortedFiles_sortedFiles]
  split
  · rename_i hdistinct
    rw [require_pos (hnodup.mpr hdistinct)]
    rfl
  · rename_i hdouble
    rw [require_neg fun hsorted => hdouble (hnodup.mp hsorted)]
    rfl

/-! ### The lines -/

/-- The reading loop gathers plain entries as they are. -/
theorem foldlM_readTreeLine_entries {es : List (Bytes × Bytes)}
    (hkeys : ∀ e ∈ es, equalsSign ∉ e.1 ∧ e.1 ≠ checksumKey)
    (hlines : ∀ e ∈ es, carriageReturn ∉ entryLine e) (read : ManifestLines) :
    (es.map entryLine).foldlM readTreeLine read =
      .ok ⟨read.values ++ es, read.bodyText ++ bodyOf es, read.expectedBodyChecksum⟩ := by
  induction es generalizing read with
  | nil => simp [bodyOf, pure, Except.pure]
  | cons e es ih =>
      obtain ⟨hequals, hchecksum⟩ := hkeys e List.mem_cons_self
      have hstep : readTreeLine read (entryLine e) =
          .ok ⟨read.values ++ [e], read.bodyText ++ entryLine e ++ [newline],
            read.expectedBodyChecksum⟩ := by
        rw [readTreeLine, stripCarriageReturn_of_notMem (hlines e List.mem_cons_self),
          if_neg (entryLine_ne_nil e), splitFirst_entryLine hequals]
        dsimp only
        rw [if_neg hchecksum]
      rw [List.map_cons, List.foldlM_cons, hstep, ok_bind,
        ih (fun e' he' => hkeys e' (List.mem_cons_of_mem _ he'))
          (fun e' he' => hlines e' (List.mem_cons_of_mem _ he'))]
      simp [bodyOf]

theorem treeEntries_keys (manifest : TreeManifest) :
    (treeEntries manifest).map Prod.fst = treeKeys := rfl

/-- **The lines** of a written manifest, as the loop gathers them. -/
theorem readTreeLines_bodyWithoutChecksum {manifest : TreeManifest}
    (hid : ∀ file ∈ manifest.files, isValidTransferId file.transferId) :
    readTreeLines (withBodyChecksum (bodyWithoutChecksum manifest)) =
      .ok ⟨treeEntries manifest, bodyWithoutChecksum manifest,
        hex32 (crc32cOf (bodyWithoutChecksum manifest))⟩ := by
  generalize hdigits : hex32 (crc32cOf (bodyWithoutChecksum manifest)) = digits
  have hend : ∀ x, LineEnd x → x ∉ entryLine (checksumKey, digits) := by
    rintro x hx
    have hkey : x ∉ checksumKey ∧ x ≠ equalsSign ∧ isHexDigit x = false := by
      rcases hx with rfl | rfl
      · decide
      · decide
    rw [← hdigits, entryLine, List.mem_append, List.mem_cons, not_or, not_or]
    exact ⟨hkey.1, hkey.2.1, notMem_hex32 hkey.2.2⟩
  have htext : withBodyChecksum (bodyWithoutChecksum manifest) =
      lines newline ((treeEntries manifest).map entryLine ++
        [entryLine (checksumKey, digits)]) := by
    rw [withBodyChecksum, hdigits, bodyWithoutChecksum, checksummedText, bodyOf, lines_append]
    simp
  have hnewline : ∀ l ∈ (treeEntries manifest).map entryLine ++ [entryLine (checksumKey, digits)],
      newline ∉ l := by
    intro l hl
    rcases List.mem_append.mp hl with hl | hl
    · obtain ⟨e, he, rfl⟩ := List.mem_map.mp hl
      exact LineEnd.notMem_treeEntries (.inl rfl) hid e he
    · obtain rfl := List.mem_singleton.mp hl
      exact hend newline (.inl rfl)
  have hkeys : ∀ e ∈ treeEntries manifest, equalsSign ∉ e.1 ∧ e.1 ≠ checksumKey := by
    have hall : ∀ key ∈ treeKeys, equalsSign ∉ key ∧ key ≠ checksumKey := by decide
    rw [← treeEntries_keys manifest] at hall
    exact fun e he => hall e.1 (List.mem_map_of_mem he)
  have hbody := foldlM_readTreeLine_entries hkeys
    (LineEnd.notMem_treeEntries (.inr rfl) hid) ⟨[], [], []⟩
  rw [readTreeLines, htext, pieces_lines newline hnewline, List.foldlM_append, hbody, ok_bind,
    List.foldlM_cons, readTreeLine, stripCarriageReturn_of_notMem (hend _ (.inr rfl)),
    if_neg (entryLine_ne_nil _), splitFirst_entryLine checksumKey_ok.2]
  rfl

/-! ### The manifest -/

/-- The numbers of a tree manifest fit their fields. -/
structure TreeManifest.Fits (manifest : TreeManifest) : Prop where
  createdAt : manifest.createdAtUnixNanos < 2 ^ 64
  updatedAt : manifest.updatedAtUnixNanos < 2 ^ 64
  files : ∀ file ∈ manifest.files, file.Fits

/-- The paths of a manifest that can be written are valid. -/
theorem validPaths_of_serialized {manifest : TreeManifest} {text : Bytes}
    (h : serializeTreeManifest manifest = .ok text) :
    ∀ file ∈ manifest.files, validateTreeRelativePath file.relativePath = .ok () := by
  simp only [serializeTreeManifest, bind_eq_ok] at h
  obtain ⟨_, -, _, -, _, hfiles, -⟩ := h
  intro file hfile
  have hone := forM_eq_ok.mp hfiles file hfile
  simp only [bind_eq_ok] at hone
  obtain ⟨_, hvalid, -⟩ := hone
  exact hvalid

/-- **What the parser makes of a written manifest.** -/
theorem parseTreeManifest_serialized {manifest : TreeManifest} {text : Bytes}
    (hfits : manifest.Fits) (h : serializeTreeManifest manifest = .ok text) :
    parseTreeManifest text =
      if (manifest.files.map TreeFileRecord.relativePath).Nodup then
        .ok { manifest with files := sortedFiles manifest.files }
      else .error (.invalidArgument (ascii "tree manifest contains duplicate file")) := by
  have hpaths := validPaths_of_serialized h
  obtain ⟨hversion, hid, rfl⟩ := serializeTreeManifest_eq_ok h
  have hfiles := parseFiles_serializeFiles
    (fun file hfile => parseTreeFile_treeFileText (hfits.files file hfile) (hpaths file hfile)
      (hid file hfile)) hid
  rw [parseTreeManifest, readTreeLines_bodyWithoutChecksum hid, ok_bind]
  generalize hread : ManifestLines.mk (treeEntries manifest) (bodyWithoutChecksum manifest)
    (hex32 (crc32cOf (bodyWithoutChecksum manifest))) = read
  have hbody : checkTreeBody read = .ok () := by
    have hkeys : treeKeys.forM (read.requireKey (ascii "tree manifest missing key: ")) =
        .ok () := by
      rw [forM_eq_ok]
      intro key hkey
      rw [requireKey_eq_ok, ← hread]
      exact hkey
    have hexpected : read.expectedBodyChecksum = hex32 (crc32cOf (bodyWithoutChecksum manifest)) ∧
        read.bodyText = bodyWithoutChecksum manifest := by
      rw [← hread]
      exact ⟨rfl, rfl⟩
    have hne : hex32 (crc32cOf (bodyWithoutChecksum manifest)) ≠ [] := by
      rw [← List.length_pos_iff, hex32, length_hexDigits]
      decide
    rw [checkTreeBody, hkeys, ok_bind, hexpected.1, hexpected.2, require_pos hne, ok_bind,
      parseHex32_hex32, ok_bind, require_pos rfl]
  have hvalue : ∀ {key value : Bytes}, (treeEntries manifest).lookup key = some value →
      read.value key = value := by
    intro key value hlookup
    rw [ManifestLines.value, ← hread]
    show ((treeEntries manifest).lookup key).getD [] = value
    rw [hlookup]
    rfl
  have hversion64 : manifest.version < 2 ^ 64 := by
    rw [hversion]
    decide
  rw [hbody, ok_bind, parseTreeFields, @hvalue (ascii "manifest_version") _ rfl,
    parseU64_decimal hversion64, ok_bind, require_pos hversion, ok_bind,
    @hvalue (ascii "mode") _ rfl, parseTreeTransferMode_name, ok_bind,
    @hvalue (ascii "root_logical_path_hex") _ rfl, fromHexString_toHex, ok_bind,
    @hvalue (ascii "checksum_algorithm") _ rfl, parseChecksumAlgorithm_name, ok_bind,
    @hvalue (ascii "created_at_unix_ns") _ rfl, parseU64_decimal hfits.createdAt, ok_bind,
    @hvalue (ascii "updated_at_unix_ns") _ rfl, parseU64_decimal hfits.updatedAt, ok_bind,
    @hvalue (ascii "files") _ rfl, hfiles]
  split
  · rfl
  · rfl

/-- **Round trip.**  A written manifest reads back, its files sorted by path,
exactly if no two of them have the same path. -/
theorem tree_roundTrip_iff {manifest : TreeManifest} {text : Bytes} (hfits : manifest.Fits)
    (h : serializeTreeManifest manifest = .ok text) :
    parseTreeManifest text = .ok { manifest with files := sortedFiles manifest.files } ↔
      (manifest.files.map TreeFileRecord.relativePath).Nodup := by
  rw [parseTreeManifest_serialized hfits h]
  split
  · rename_i hdistinct
    exact iff_of_true rfl hdistinct
  · rename_i hdouble
    exact iff_of_false (fun hok => by cases hok) hdouble

/-- A tree of files with the given paths. -/
def treeOfPaths (paths : List Bytes) : TreeManifest :=
  ⟨1, .upload, ascii "r", .crc32c, 7, 8,
    paths.map fun path => ⟨path, 3, -1, ascii "t", .failed, ascii "e"⟩⟩

theorem treeOfPaths_fits (paths : List Bytes) : (treeOfPaths paths).Fits := by
  have hseven : (7 : Nat) < 2 ^ 64 := by decide
  have height : (8 : Nat) < 2 ^ 64 := by decide
  have hthree : (3 : Nat) < 2 ^ 64 := by decide
  have hlow : -2 ^ 63 ≤ (-1 : Int) := by decide
  have hhigh : (-1 : Int) < 2 ^ 63 := by decide
  refine ⟨hseven, height, ?_⟩
  intro file hfile
  obtain ⟨path, -, rfl⟩ := List.mem_map.mp hfile
  exact ⟨hthree, hlow, hhigh⟩

theorem serialize_treeOfPaths {paths : List Bytes}
    (h : ∀ path ∈ paths, validateTreeRelativePath path = .ok ()) :
    serializeTreeManifest (treeOfPaths paths) =
      .ok (withBodyChecksum (bodyWithoutChecksum (treeOfPaths paths))) := by
  have hfiles : (treeOfPaths paths).files.forM (fun file => do
      validateTreeRelativePath file.relativePath
      require (isValidTransferId file.transferId)
        (.invalidArgument (ascii "tree file transfer_id is invalid"))) = .ok () := by
    rw [forM_eq_ok]
    intro file hfile
    obtain ⟨path, hpath, rfl⟩ := List.mem_map.mp hfile
    rw [h path hpath]
    rfl
  rw [serializeTreeManifest, hfiles]
  rfl

theorem tree_roundTrip_two :
    parseTreeManifest (withBodyChecksum (bodyWithoutChecksum
        (treeOfPaths [ascii "b/c", ascii "a"]))) =
      .ok (treeOfPaths [ascii "a", ascii "b/c"]) ↔
      [ascii "b/c", ascii "a"].Nodup :=
  tree_roundTrip_iff (treeOfPaths_fits [ascii "b/c", ascii "a"])
    (serialize_treeOfPaths (by decide))

/-- The same path twice is written, and refused when it is read. -/
theorem tree_roundTrip_duplicate :
    ∃ manifest text, manifest.Fits ∧ serializeTreeManifest manifest = .ok text ∧
      manifest = treeOfPaths [ascii "a", ascii "a"] ∧
      parseTreeManifest text =
        .error (.invalidArgument (ascii "tree manifest contains duplicate file")) ∧
      parseTreeManifest text ≠ .ok { manifest with files := sortedFiles manifest.files } := by
  have hserialized := @serialize_treeOfPaths [ascii "a", ascii "a"] (by decide)
  have hparsed := parseTreeManifest_serialized (treeOfPaths_fits _) hserialized
  rw [if_neg (by decide)] at hparsed
  refine ⟨_, _, treeOfPaths_fits _, hserialized, rfl, hparsed, ?_⟩
  rw [hparsed]
  exact fun hok => by cases hok

end GridFlux
