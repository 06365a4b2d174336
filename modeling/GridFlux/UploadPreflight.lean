/-
GridFlux/UploadPreflight.lean

`scanLocalTree` of `tree_scan.cpp` and `preflightUploadResume` of
`tree_transfer_client.cpp`: before an upload is resumed the source tree is
scanned again and compared with the manifest, record by record and then file by
file.

A scan has no path twice (`scanLocalTree_distinct`), as two entries of a tree are
at two places.  So the two loops find a difference exactly if the files of the
scan and of the manifest are not the same set (`preflightUploadResume_exact`).
-/
import GridFlux.TreeScheduler
import GridFlux.TreeEnumeration
import GridFlux.KeyedList

namespace GridFlux

open FileTree TextCodec KeyedList

/-! ### The scan -/

/-- A `directory_entry` with what the system answers about it; the errors are
the values of its `error_code`s. -/
structure ScanEntry where
  parents : List Name
  name : Name
  isSymlink : Except Int Bool
  isDirectory : Except Int Bool
  isRegularFile : Except Int Bool
  relative : Except Int Unit
  fileSize : Except Int Nat
  mtime : Except Int Int

/-- The place of the entry beneath the root. -/
def ScanEntry.location (entry : ScanEntry) : List Name := entry.parents ++ [entry.name]

/-- What a `recursive_directory_iterator` over the root yields.  An `increment`
that fails leaves the end iterator, so the entries end there. -/
structure LocalTree where
  rootExists : Bool
  rootIsDirectory : Bool
  opened : Except Int Unit
  entries : List ScanEntry
  distinct : (entries.map ScanEntry.location).Nodup

structure TreeFileInfo where
  relativePath : Bytes
  fullPath : Bytes
  size : Nat
  mtimeUnixSeconds : Int
deriving DecidableEq, Repr

/-- `entry.path()`. -/
def entryPath (root : Bytes) (location : List Name) : Bytes :=
  location.foldl (fun path name => appendPath path name.val) root

/-- One round of the loop, `none` for a directory. -/
def scanEntry (root : Bytes) (entry : ScanEntry) : Except Status (Option TreeFileInfo) := do
  let path := entryPath root entry.location
  let symlink ← entry.isSymlink.mapError (.systemError (ascii "tree entry type failed"))
  require (symlink = false) (.invalidArgument (ascii "tree scan rejects symlink: " ++ path))
  let directory ← entry.isDirectory.mapError (.systemError (ascii "tree entry type failed"))
  if directory then return none
  else
    -- `is_regular_file` is false on an error, which is looked at too late
    require (entry.isRegularFile.toOption = some true)
      (.invalidArgument (ascii "tree scan rejects non-regular file: " ++ path))
    let _ ← entry.relative.mapError (.systemError (ascii "tree relative path failed"))
    validateTreeRelativePath (relativeText entry.location)
    let size ← entry.fileSize.mapError (.systemError (ascii "tree file size failed"))
    let mtime ← entry.mtime.mapError (.systemError (ascii "stat"))
    return some ⟨relativeText entry.location, path, size, mtime⟩

def scanEntries (root : Bytes) : List ScanEntry → Except Status (List TreeFileInfo)
  | [] => .ok []
  | entry :: rest => do
      let file ← scanEntry root entry
      let files ← scanEntries root rest
      return file.toList ++ files

def scanLocalTree (root : Bytes) (tree : LocalTree) : Except Status (List TreeFileInfo) := do
  require tree.rootExists (.invalidArgument (ascii "tree root does not exist"))
  require tree.rootIsDirectory (.invalidArgument (ascii "tree root is not a directory"))
  let _ ← tree.opened.mapError (.systemError (ascii "tree scan failed"))
  let files ← scanEntries root tree.entries
  return files.insertionSort fun left right => left.relativePath ≤ right.relativePath

/-! ### The comparison with the manifest -/

/-- The order in which an `unordered_map` is walked. -/
structure IterationOrder where
  walk : List (Bytes × FileMetadata) → List (Bytes × FileMetadata)
  perm : ∀ entries, (walk entries).Perm entries

def markManifestChanged (s : SchedulerState) (index : Nat) (message : Bytes) (saving : Saving) :
    Except Status Unit × SchedulerState :=
  let changed := { s with manifest := { s.manifest with
    files := s.manifest.files.modify index fun record =>
      { record with status := .changed, error := message } } }
  let (saveStatus, saved) := changed.saveManifest saving
  match saveStatus with
  | .error e => (.error e, saved)
  | .ok _ => (.error (.invalidArgument message), saved)

/-- The `current` map. -/
def currentFiles (scanned : List TreeFileInfo) : List (Bytes × FileMetadata) :=
  (scanned.map fun file => (file.relativePath, ⟨file.size, file.mtimeUnixSeconds⟩)).foldl
    emplace []

/-- What is wrong with a record. -/
def recordChange (current : List (Bytes × FileMetadata)) (record : TreeFileRecord) :
    Option Bytes :=
  match current.lookup record.relativePath with
  | none => some (changedMissingMessage (ascii "source file changed") record
      (ascii "missing from source tree"))
  | some metadata =>
      if metadataMatches record metadata = false then
        some (changedMessage (ascii "source file changed") record metadata)
      else none

/-- The loop over the records, from this index on. -/
def firstChanged (current : List (Bytes × FileMetadata)) :
    Nat → List TreeFileRecord → Option (Nat × Bytes)
  | _, [] => none
  | index, record :: records =>
      match recordChange current record with
      | some message => some (index, message)
      | none => firstChanged current (index + 1) records

def addedMessage (entry : Bytes × FileMetadata) : Bytes :=
  ascii "source tree changed: " ++ entry.1 ++
    ascii " manifest_size=missing manifest_mtime=missing current_size=" ++ decimal entry.2.size ++
    ascii " current_mtime=" ++ signedDecimal entry.2.mtimeUnixSeconds

/-- The loop over the map. -/
def firstAdded (records : List TreeFileRecord) : List (Bytes × FileMetadata) → Option Bytes
  | [] => none
  | entry :: entries =>
      if records.any fun record => record.relativePath = entry.1 then firstAdded records entries
      else some (addedMessage entry)

def preflightUploadResume (options : TreeTransferOptions) (tree : LocalTree)
    (order : IterationOrder) (saving : Saving) (s : SchedulerState) :
    Except Status Unit × SchedulerState :=
  if options.resume = false then (.ok (), s)
  else
    match scanLocalTree options.sourceDir tree with
    | .error e => (.error e, s)
    | .ok scanned =>
        let current := currentFiles scanned
        match firstChanged current 0 s.manifest.files with
        | some (index, message) => markManifestChanged s index message saving
        | none =>
            match firstAdded s.manifest.files (order.walk current) with
            | some message => (.error (.invalidArgument message), s)
            | none => (.ok (), s)

/-! ### A scan has no path twice -/

theorem relativeText_injective {first second : List Name}
    (h : relativeText first = relativeText second) : first = second := by
  have hpieces : ∀ below : List Name, pieces slash (relativeText below) =
      below.map Subtype.val := by
    intro below
    apply pieces_join
    intro piece hpiece
    obtain ⟨n, -, rfl⟩ := List.mem_map.mp hpiece
    exact ⟨n.property.2.1, n.property.1⟩
  have hnames := congrArg (pieces slash) h
  rw [hpieces, hpieces] at hnames
  exact List.map_injective_iff.mpr Subtype.val_injective hnames

/-- A file of the scan has the path of its entry. -/
theorem scanEntry_relativePath {root : Bytes} {entry : ScanEntry} {file : TreeFileInfo}
    (h : scanEntry root entry = .ok (some file)) :
    file.relativePath = relativeText entry.location := by
  simp only [scanEntry, bind_eq_ok] at h
  obtain ⟨-, -, -, -, directory, -, h⟩ := h
  split at h
  · cases h
  · simp only [bind_eq_ok] at h
    obtain ⟨-, -, -, -, -, -, size, -, mtime, -, h⟩ := h
    cases h
    rfl

theorem scanEntries_paths {root : Bytes} {entries : List ScanEntry} {files : List TreeFileInfo}
    (h : scanEntries root entries = .ok files) :
    (files.map TreeFileInfo.relativePath).Sublist
      (entries.map fun entry => relativeText entry.location) := by
  induction entries generalizing files with
  | nil =>
      cases h
      exact List.Sublist.refl _
  | cons entry rest ih =>
      simp only [scanEntries, bind_eq_ok] at h
      obtain ⟨file, hfile, others, hothers, h⟩ := h
      cases h
      cases file with
      | none => exact (ih hothers).cons _
      | some file =>
          rw [Option.toList_some, List.singleton_append, List.map_cons, List.map_cons,
            scanEntry_relativePath hfile]
          exact (ih hothers).cons_cons _

theorem scanLocalTree_distinct {root : Bytes} {tree : LocalTree} {files : List TreeFileInfo}
    (h : scanLocalTree root tree = .ok files) :
    (files.map TreeFileInfo.relativePath).Nodup := by
  simp only [scanLocalTree, bind_eq_ok] at h
  obtain ⟨-, -, -, -, -, -, found, hfound, h⟩ := h
  cases h
  have hperm : (found.insertionSort fun left right =>
      left.relativePath ≤ right.relativePath).Perm found := List.perm_insertionSort _ _
  rw [(hperm.map TreeFileInfo.relativePath).nodup_iff]
  apply (scanEntries_paths hfound).nodup
  have hentries : (tree.entries.map fun entry => relativeText entry.location) =
      (tree.entries.map ScanEntry.location).map relativeText := by
    rw [List.map_map]
    rfl
  rw [hentries]
  exact tree.distinct.map fun _ _ => relativeText_injective

/-! ### What the loops find -/

/-- The path, size and time of a file. -/
def TreeFileInfo.key (file : TreeFileInfo) : Bytes × Nat × Int :=
  (file.relativePath, file.size, file.mtimeUnixSeconds)

def TreeFileRecord.sourceKey (record : TreeFileRecord) : Bytes × Nat × Int :=
  (record.relativePath, record.size, record.mtimeUnixSeconds)

/-- The scan and the manifest name the same set of files. -/
def SameFiles (scanned : List TreeFileInfo) (records : List TreeFileRecord) : Prop :=
  ∀ key, key ∈ scanned.map TreeFileInfo.key ↔ key ∈ records.map TreeFileRecord.sourceKey

theorem metadataMatches_iff {record : TreeFileRecord} {metadata : FileMetadata} :
    metadataMatches record metadata = true ↔
      metadata = ⟨record.size, record.mtimeUnixSeconds⟩ := by
  obtain ⟨size, mtime⟩ := metadata
  rw [metadataMatches, Bool.and_eq_true, decide_eq_true_eq, decide_eq_true_eq,
    FileMetadata.mk.injEq]
  exact and_congr eq_comm eq_comm

section Loops

variable {scanned : List TreeFileInfo} {records : List TreeFileRecord} {record : TreeFileRecord}
  {current : List (Bytes × FileMetadata)}

theorem currentFiles_eq (h : (scanned.map TreeFileInfo.relativePath).Nodup) :
    currentFiles scanned =
      scanned.map fun file => (file.relativePath, ⟨file.size, file.mtimeUnixSeconds⟩) := by
  apply foldl_emplace
  rw [List.nil_append, List.map_map]
  exact h

theorem mem_currentFiles (h : (scanned.map TreeFileInfo.relativePath).Nodup) {path : Bytes}
    {metadata : FileMetadata} :
    (path, metadata) ∈ currentFiles scanned ↔
      (path, metadata.size, metadata.mtimeUnixSeconds) ∈ scanned.map TreeFileInfo.key := by
  rw [currentFiles_eq h, List.mem_map, List.mem_map]
  constructor
  · rintro ⟨file, hfile, heq⟩
    cases heq
    exact ⟨file, hfile, rfl⟩
  · rintro ⟨file, hfile, heq⟩
    obtain ⟨size, mtime⟩ := metadata
    cases heq
    exact ⟨file, hfile, rfl⟩

theorem lookup_currentFiles (h : (scanned.map TreeFileInfo.relativePath).Nodup) {path : Bytes}
    {metadata : FileMetadata} :
    (currentFiles scanned).lookup path = some metadata ↔
      (path, metadata.size, metadata.mtimeUnixSeconds) ∈ scanned.map TreeFileInfo.key := by
  rw [← mem_currentFiles h]
  apply lookup_eq_some_iff_mem
  rw [currentFiles_eq h, List.map_map]
  exact h

/-- A record passes exactly if the scan has its file. -/
theorem recordChange_eq_none (h : (scanned.map TreeFileInfo.relativePath).Nodup) :
    recordChange (currentFiles scanned) record = none ↔
      record.sourceKey ∈ scanned.map TreeFileInfo.key := by
  have hfound := @lookup_currentFiles scanned h record.relativePath
    ⟨record.size, record.mtimeUnixSeconds⟩
  rw [TreeFileRecord.sourceKey, ← hfound, recordChange]
  cases (currentFiles scanned).lookup record.relativePath with
  | none => exact ⟨fun hnone => (by cases hnone), fun hsome => (by cases hsome)⟩
  | some metadata =>
      rw [Option.some.injEq, ← metadataMatches_iff]
      show (if metadataMatches record metadata = false then some _ else none) = none ↔ _
      cases metadataMatches record metadata with
      | false => exact ⟨fun h => (by cases h), fun h => (by cases h)⟩
      | true => exact ⟨fun _ => rfl, fun _ => rfl⟩

theorem firstChanged_eq_none {index : Nat} :
    firstChanged current index records = none ↔
      ∀ record ∈ records, recordChange current record = none := by
  induction records generalizing index with
  | nil => exact ⟨fun _ _ hmem => (by cases hmem), fun _ => rfl⟩
  | cons record records ih =>
      rw [firstChanged, List.forall_mem_cons]
      cases hchange : recordChange current record with
      | some message => exact ⟨fun h => (by cases h), fun h => (by cases h.1)⟩
      | none =>
          rw [eq_self_iff_true, true_and]
          exact ih

theorem firstChanged_eq_some {index found : Nat} {message : Bytes}
    (h : firstChanged current index records = some (found, message)) :
    ∃ j record, found = index + j ∧ records[j]? = some record ∧
      recordChange current record = some message := by
  induction records generalizing index with
  | nil => cases h
  | cons record records ih =>
      rw [firstChanged] at h
      cases hchange : recordChange current record with
      | some changed =>
          rw [hchange] at h
          cases h
          exact ⟨0, record, rfl, rfl, hchange⟩
      | none =>
          rw [hchange] at h
          obtain ⟨j, other, hfound, hother, hmessage⟩ := ih h
          exact ⟨j + 1, other, by omega, hother, hmessage⟩

theorem firstAdded_eq_none :
    firstAdded records current = none ↔
      ∀ entry ∈ current, ∃ record ∈ records, record.relativePath = entry.1 := by
  induction current with
  | nil => exact ⟨fun _ _ hmem => (by cases hmem), fun _ => rfl⟩
  | cons entry entries ih =>
      rw [firstAdded, List.forall_mem_cons]
      have hany : (records.any fun record => record.relativePath = entry.1) = true ↔
          ∃ record ∈ records, record.relativePath = entry.1 := by
        rw [List.any_eq_true]
        simp only [decide_eq_true_eq]
      split
      · rename_i hfound
        rw [ih]
        exact ⟨fun h => ⟨hany.mp hfound, h⟩, fun h => h.2⟩
      · rename_i hnot
        exact ⟨fun h => (by cases h), fun h => absurd (hany.mpr h.1) hnot⟩

/-- **No loop finds anything** exactly if the two sets of files are the same. -/
theorem sameFiles_iff (h : (scanned.map TreeFileInfo.relativePath).Nodup)
    (order : IterationOrder) :
    SameFiles scanned records ↔
      firstChanged (currentFiles scanned) 0 records = none ∧
        firstAdded records (order.walk (currentFiles scanned)) = none := by
  rw [firstChanged_eq_none, firstAdded_eq_none]
  constructor
  · intro hsame
    constructor
    · intro record hrecord
      exact (recordChange_eq_none h).mpr ((hsame _).mpr (List.mem_map_of_mem hrecord))
    · rintro ⟨path, metadata⟩ hentry
      have hkey := (mem_currentFiles h).mp ((order.perm _).mem_iff.mp hentry)
      obtain ⟨record, hrecord, heq⟩ := List.mem_map.mp ((hsame _).mp hkey)
      exact ⟨record, hrecord, congrArg Prod.fst heq⟩
  · rintro ⟨hrecords, hadded⟩
    have hpresent : ∀ record ∈ records, record.sourceKey ∈ scanned.map TreeFileInfo.key :=
      fun record hrecord => (recordChange_eq_none h).mp (hrecords record hrecord)
    rintro ⟨path, size, mtime⟩
    constructor
    · intro hkey
      have hlookup := (@lookup_currentFiles scanned h path ⟨size, mtime⟩).mpr hkey
      have hentry := (order.perm _).mem_iff.mpr (mem_of_lookup hlookup)
      obtain ⟨record, hrecord, hpath⟩ := hadded _ hentry
      -- the scan has the record's file under the same path, so it is this file
      have hown := (@lookup_currentFiles scanned h record.relativePath
        ⟨record.size, record.mtimeUnixSeconds⟩).mpr (hpresent record hrecord)
      rw [hpath, hlookup] at hown
      cases hown
      obtain rfl : record.relativePath = path := hpath
      exact List.mem_map_of_mem hrecord
    · intro hkey
      obtain ⟨record, hrecord, heq⟩ := List.mem_map.mp hkey
      rw [← heq]
      exact hpresent record hrecord

end Loops

/-! ### The preflight -/

section Preflight

variable {s : SchedulerState} {index : Nat} {record : TreeFileRecord} {message : Bytes}

theorem modify_eq_set {α : Type} {l : List α} {index : Nat} {a : α} (h : l[index]? = some a)
    (change : α → α) : l.modify index change = l.set index (change a) := by
  apply List.ext_getElem?
  intro j
  rw [List.getElem?_modify, List.getElem?_set]
  by_cases hj : index = j
  · subst hj
    have hlt := (List.getElem?_eq_some_iff.mp h).1
    rw [if_pos rfl, if_pos hlt, h]
    show some (if index = index then change a else a) = some (change a)
    rw [if_pos rfl]
  · rw [if_neg hj]
    cases l[j]? with
    | none => rfl
    | some b =>
        show some (if index = j then change b else b) = some b
        rw [if_neg hj]

/-- The call fails whether or not the manifest can be written, and one record
has changed. -/
theorem markManifestChanged_spec (hrecord : s.manifest.files[index]? = some record)
    (saving : Saving) :
    (∃ e, (markManifestChanged s index message saving).1 = .error e) ∧
      (markManifestChanged s index message saving).2.manifest.files =
        s.manifest.files.set index { record with status := .changed, error := message } := by
  rw [← modify_eq_set hrecord fun record => { record with status := .changed, error := message }]
  rw [markManifestChanged]
  obtain ⟨manifest, hfiles, hsave⟩ := SchedulerState.saveManifest_cases
    { s with manifest := { s.manifest with
      files := s.manifest.files.modify index fun record =>
        { record with status := .changed, error := message } } } saving
  rcases hsave with ⟨e, hsave⟩ | ⟨text, -, hsave⟩
  · rw [hsave]
    exact ⟨⟨e, rfl⟩, hfiles⟩
  · rw [hsave]
    exact ⟨⟨.invalidArgument message, rfl⟩, hfiles⟩

/-- **The preflight is exact.**  It passes if and only if the scan and the
manifest name the same files, and then nothing has changed; otherwise at most
one record is marked, whose file the scan does not have as it was. -/
theorem preflightUploadResume_exact (options : TreeTransferOptions) (tree : LocalTree)
    (order : IterationOrder) (saving : Saving) (s : SchedulerState) (scanned : List TreeFileInfo)
    (hresume : options.resume = true) (hscan : scanLocalTree options.sourceDir tree = .ok scanned) :
    ((preflightUploadResume options tree order saving s).1 = .ok () ↔
        SameFiles scanned s.manifest.files) ∧
      ((preflightUploadResume options tree order saving s).1 = .ok () →
        (preflightUploadResume options tree order saving s).2 = s) ∧
      ((preflightUploadResume options tree order saving s).1 ≠ .ok () →
        (preflightUploadResume options tree order saving s).2.manifest.files = s.manifest.files ∨
        ∃ (index : Nat) (record : TreeFileRecord) (message : Bytes),
          s.manifest.files[index]? = some record ∧
          record.sourceKey ∉ scanned.map TreeFileInfo.key ∧
          (preflightUploadResume options tree order saving s).2.manifest.files =
            s.manifest.files.set index { record with status := .changed, error := message }) := by
  have hdistinct := scanLocalTree_distinct hscan
  have hresumed : ¬options.resume = false := by
    rw [hresume]
    exact Bool.noConfusion
  rw [sameFiles_iff hdistinct order, preflightUploadResume, if_neg hresumed, hscan]
  dsimp only
  cases hchanged : firstChanged (currentFiles scanned) 0 s.manifest.files with
  | some found =>
      obtain ⟨index, message⟩ := found
      obtain ⟨j, record, hindex, hrecord, hmessage⟩ := firstChanged_eq_some hchanged
      rw [Nat.zero_add] at hindex
      subst hindex
      obtain ⟨⟨e, herror⟩, hfiles⟩ := @markManifestChanged_spec s index record message hrecord saving
      dsimp only
      rw [herror]
      refine ⟨⟨fun h => (by cases h), fun h => (by cases h.1)⟩, fun h => (by cases h), fun _ => ?_⟩
      refine .inr ⟨index, record, message, hrecord, ?_, hfiles⟩
      intro hkey
      rw [(recordChange_eq_none hdistinct).mpr hkey] at hmessage
      cases hmessage
  | none =>
      dsimp only
      cases hadded : firstAdded s.manifest.files (order.walk (currentFiles scanned)) with
      | some message =>
          refine ⟨⟨fun h => (by cases h), fun h => (by cases h.2)⟩, fun h => (by cases h), ?_⟩
          exact fun _ => .inl rfl
      | none => exact ⟨⟨fun _ => ⟨rfl, rfl⟩, fun _ => rfl⟩, fun _ => rfl, fun h => absurd rfl h⟩

/-- One file that has grown since the manifest was written. -/
def grownTree : LocalTree where
  rootExists := true
  rootIsDirectory := true
  opened := .ok ()
  entries := [⟨[], nameA, .ok false, .ok false, .ok true, .ok (), .ok 4, .ok 9⟩]
  distinct := List.nodup_singleton _

def grownStart : SchedulerState where
  manifest := ⟨1, .upload, ascii "src", .none, 0, 0, [⟨ascii "a", 3, 5, ascii "t1", .pending, []⟩]⟩
  disk := []

def grownOutcome : Except Status Unit × SchedulerState :=
  preflightUploadResume { sourceDir := ascii "src", destDir := [], resume := true } grownTree
    ⟨id, fun _ => List.Perm.refl _⟩ ⟨7, .ok ()⟩ grownStart

theorem preflightUploadResume_grown :
    grownOutcome.1 ≠ .ok () ∧ (grownOutcome.2.manifest.files = grownStart.manifest.files ∨
      ∃ (index : Nat) (record : TreeFileRecord) (message : Bytes),
        grownStart.manifest.files[index]? = some record ∧
        record.sourceKey ∉
          ([⟨ascii "a", ascii "src/a", 4, 9⟩] : List TreeFileInfo).map TreeFileInfo.key ∧
        grownOutcome.2.manifest.files =
          grownStart.manifest.files.set index { record with status := .changed, error := message }) := by
  obtain ⟨hok, -, hmarked⟩ := preflightUploadResume_exact
    { sourceDir := ascii "src", destDir := [], resume := true } grownTree
    ⟨id, fun _ => List.Perm.refl _⟩ ⟨7, .ok ()⟩ grownStart [⟨ascii "a", ascii "src/a", 4, 9⟩] rfl
    (by decide)
  have hnot : grownOutcome.1 ≠ .ok () := by
    intro h
    have hsame := hok.mp h (ascii "a", 4, 9)
    exact absurd (hsame.mp (by decide)) (by decide)
  exact ⟨hnot, hmarked hnot⟩

end Preflight

end GridFlux
