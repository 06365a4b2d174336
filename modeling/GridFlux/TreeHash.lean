/-
GridFlux/TreeHash.lean

`computeTreeVerificationHash` of `tree_transfer_client.cpp`, with which the two
ends of a tree transfer are compared: the CRC32C of a text made of the files of a
directory in the order of their paths.  Files whose path looks like that of a side
file of a transfer are left out.

The text of a file is self-delimiting if its size is the length of its contents,
so the text of a tree determines its files (`hashedText_eq_iff`), whatever the
order in which the directory is listed.  Two trees therefore have the same hash if
they hold the same files, and if they do not, two texts collide; files that differ
in up to four bytes in a row are told apart (`treeHash_exact`).
-/
import GridFlux.UploadPreflight
import GridFlux.SelfDelimiting
import GridFlux.TextSearch
import GridFlux.DownloadManifest

namespace GridFlux

open FileTree TextCodec

/-! ### The hash -/

/-- A `directory_entry` of the scan, with what the system answers when the file
is read. -/
structure HashEntry extends ScanEntry where
  /-- The second `relative`. -/
  relativeAgain : Except Int Unit
  opens : Bool
  contents : Bytes
  /-- The reads end at the end of the file. -/
  eof : Bool

/-- A directory to be hashed.  An iterator that cannot be opened is the end
iterator, and so is one whose `increment` fails; the error is not looked at. -/
structure HashTree where
  rootExists : Bool
  rootIsDirectory : Bool
  opened : Bool
  entries : List HashEntry
  distinct : (entries.map fun entry => entry.location).Nodup

/-- The blocks a loop of `read`s with this buffer gets; the last one is short. -/
def readBlocks (bufferSize : Nat) (bytes : Bytes) : List Bytes :=
  (List.range (bytes.length / bufferSize + 1)).map fun round =>
    (bytes.drop (round * bufferSize)).take bufferSize

/-- The names that the transfers give to their side files. -/
def looksLikeSideFile (relative : Bytes) : Bool :=
  (find (ascii ".gridflux.") relative).isSome || (find (ascii ".part.") relative).isSome

/-- One round of the scan: the file if it is hashed. -/
def hashedEntry (entry : HashEntry) : Except Status (Option HashEntry) := do
  let symlink ← entry.isSymlink.mapError (.systemError (ascii "tree hash entry failed"))
  require (symlink = false) (.invalidArgument (ascii "tree hash rejects symlink"))
  -- `is_regular_file` and `is_directory` are false on an error
  if entry.isRegularFile.toOption = some true then do
    let _ ← entry.relative.mapError (.systemError (ascii "tree hash relative failed"))
    if looksLikeSideFile (relativeText entry.location) then return none
    else return some entry
  else do
    require (entry.isDirectory.toOption = some true)
      (.invalidArgument (ascii "tree hash rejects non-regular file"))
    return none

def hashedEntries : List HashEntry → Except Status (List HashEntry)
  | [] => .ok []
  | entry :: rest => do
      let file ← hashedEntry entry
      let files ← hashedEntries rest
      return file.toList ++ files

/-- The loop over the iterator. -/
def HashTree.scan (tree : HashTree) : Except Status (List HashEntry) :=
  if tree.opened then hashedEntries tree.entries else .ok []

section Hash

variable (crc32cHardwareAvailable : Bool) (root : Bytes)

/-- One round of the loop over the files. -/
def hashFile (computer : ChecksumComputer) (entry : HashEntry) :
    Except Status ChecksumComputer := do
  let update := ChecksumComputer.update crc32cHardwareAvailable
  let _ ← entry.relativeAgain.mapError (.systemError (ascii "tree hash relative failed"))
  let size ← entry.fileSize.mapError (.systemError (ascii "tree hash file size failed"))
  let computer := update (update (update (update computer (relativeText entry.location)) [0])
    (decimal size)) [0]
  require entry.opens (.runtimeError (ascii "tree hash failed to open file: " ++
    entryPath root entry.location))
  let computer := (readBlocks (1024 * 1024) entry.contents).foldl
    (fun computer block => if 0 < block.length then update computer block else computer) computer
  require entry.eof (.runtimeError (ascii "tree hash read failed: " ++
    entryPath root entry.location))
  return update computer [0]

def computeTreeVerificationHash (tree : HashTree) : Except Status Bytes := do
  require (tree.rootExists ∧ tree.rootIsDirectory)
    (.invalidArgument (ascii "tree hash root is not a directory"))
  let files ← tree.scan
  let sorted := files.insertionSort fun left right =>
    relativeText left.location ≤ relativeText right.location
  let computer ← sorted.foldlM (hashFile crc32cHardwareAvailable root)
    (ChecksumComputer.new crc32cHardwareAvailable .crc32c .software)
  return ascii "crc32c:" ++ hex32 computer.finalize.value

end Hash

/-! ### The files of a tree and their text -/

/-- What the hash sees of a file. -/
structure HashedFile where
  path : Bytes
  size : Nat
  contents : Bytes
deriving DecidableEq, Repr

def HashEntry.file (entry : HashEntry) : HashedFile :=
  ⟨relativeText entry.location, entry.fileSize.toOption.getD 0, entry.contents⟩

/-- The entry is a file that the hash covers. -/
def HashEntry.isHashed (entry : HashEntry) : Bool :=
  entry.isRegularFile.toOption = some true && !looksLikeSideFile (relativeText entry.location)

/-- The files that the hash covers, in the order of the scan. -/
def HashTree.files (tree : HashTree) : List HashedFile :=
  if tree.opened then (tree.entries.filter HashEntry.isHashed).map HashEntry.file else []

def fileText (file : HashedFile) : Bytes :=
  file.path ++ [0] ++ (decimal file.size ++ [0] ++ (file.contents ++ [0]))

def pathBefore (left right : HashedFile) : Prop := left.path ≤ right.path

instance : DecidableRel pathBefore := fun left right =>
  inferInstanceAs (Decidable (left.path ≤ right.path))

instance : Std.Total pathBefore := ⟨fun left right => List.le_total left.path right.path⟩

instance : IsTrans HashedFile pathBefore := ⟨fun _ _ _ h h' => List.le_trans h h'⟩

/-- The text whose checksum the hash is. -/
def hashedText (tree : HashTree) : Bytes :=
  (tree.files.insertionSort pathBefore).flatMap fileText

/-- The tree stays as it is while it is hashed: each file has the size that was
asked for.  A name never holds the byte 0. -/
structure HashTree.Settled (tree : HashTree) : Prop where
  path : ∀ file ∈ tree.files, 0 ∉ file.path
  size : ∀ file ∈ tree.files, file.size = file.contents.length

/-! ### What is hashed -/

theorem looksLikeSideFile_append {marker : Bytes}
    (h : marker = ascii ".gridflux." ∨ marker = ascii ".part.") (path rest : Bytes) :
    looksLikeSideFile (path ++ marker ++ rest) = true := by
  have hfound : (find marker (path ++ marker ++ rest)).isSome = true := by
    refine Option.isSome_iff_ne_none.mpr fun hnone => ?_
    rw [find_eq_none] at hnone
    refine hnone path.length ?_ ?_
    · rw [List.append_assoc, List.length_append]
      exact Nat.le_add_right _ _
    · rw [OccursAt, List.append_assoc, List.drop_left]
      exact List.prefix_append _ _
  rw [looksLikeSideFile, Bool.or_eq_true]
  rcases h with rfl | rfl
  · exact .inl hfound
  · exact .inr hfound

/-- The side files of a transfer are never hashed. -/
theorem looksLikeSideFile_sideFiles (path transferId : Bytes) :
    looksLikeSideFile (manifestPathForOutput path) = true ∧
    looksLikeSideFile (tempPathForOutput path transferId) = true ∧
    looksLikeSideFile (downloadManifestPathForOutput path) = true ∧
    looksLikeSideFile (downloadTempPathForOutput path transferId) = true ∧
    looksLikeSideFile (treeManifestPathForUpload path) = true ∧
    looksLikeSideFile (treeManifestPathForDownload path) = true := by
  have hname : ∀ suffix rest : Bytes, suffix = ascii ".gridflux." ++ rest →
      looksLikeSideFile (path ++ suffix) = true := by
    rintro _ rest rfl
    rw [← List.append_assoc]
    exact looksLikeSideFile_append (.inl rfl) path rest
  refine ⟨hname _ (ascii "manifest") rfl, looksLikeSideFile_append (.inr rfl) path transferId,
    hname _ (ascii "download.manifest") rfl, looksLikeSideFile_append (.inr rfl) path transferId,
    hname _ (ascii "tree.upload.manifest") rfl, hname _ (ascii "tree.download.manifest") rfl⟩

theorem flatten_readBlocks {bufferSize : Nat} (hpos : 0 < bufferSize) (bytes : Bytes) :
    (readBlocks bufferSize bytes).flatten = bytes := by
  have hrounds : ∀ rounds : Nat, ((List.range rounds).map fun round =>
      (bytes.drop (round * bufferSize)).take bufferSize).flatten =
        bytes.take (rounds * bufferSize) := by
    intro rounds
    induction rounds with
    | zero => rw [Nat.zero_mul]; rfl
    | succ rounds ih =>
        rw [List.range_succ, List.map_append, List.flatten_append, ih, List.map_singleton,
          List.flatten_singleton, Nat.succ_mul, List.take_add]
  rw [readBlocks, hrounds, List.take_of_length_le]
  exact Nat.le_of_lt (Nat.lt_mul_of_div_lt (Nat.lt_succ_self _) hpos)

theorem hashedEntry_eq_ok {entry : HashEntry} {file : Option HashEntry}
    (h : hashedEntry entry = .ok file) :
    file = if entry.isHashed then some entry else none := by
  simp only [hashedEntry, bind_eq_ok] at h
  obtain ⟨_, -, _, -, h⟩ := h
  by_cases hregular : entry.isRegularFile.toOption = some true
  · simp only [if_pos hregular, bind_eq_ok] at h
    obtain ⟨_, -, h⟩ := h
    by_cases hside : looksLikeSideFile (relativeText entry.location) = true
    · rw [if_pos hside] at h
      simpa [HashEntry.isHashed, hside] using (Except.ok.inj h).symm
    · rw [if_neg hside] at h
      simpa [HashEntry.isHashed, hside, hregular] using (Except.ok.inj h).symm
  · simp only [if_neg hregular, bind_eq_ok] at h
    obtain ⟨_, -, h⟩ := h
    simpa [HashEntry.isHashed, hregular] using (Except.ok.inj h).symm

theorem hashedEntries_eq_ok {entries files : List HashEntry}
    (h : hashedEntries entries = .ok files) : files = entries.filter HashEntry.isHashed := by
  induction entries generalizing files with
  | nil => exact (Except.ok.inj h).symm
  | cons entry rest ih =>
      simp only [hashedEntries, bind_eq_ok] at h
      obtain ⟨file, hfile, others, hothers, h⟩ := h
      rw [hashedEntry_eq_ok hfile, ih hothers] at h
      rw [← Except.ok.inj h]
      by_cases hhashed : entry.isHashed = true
      · rw [if_pos hhashed, List.filter_cons_of_pos hhashed]
        rfl
      · rw [if_neg hhashed, List.filter_cons_of_neg hhashed]
        rfl

section Text

variable {crc32cHardwareAvailable : Bool} {root : Bytes}

/-- The guarded updates of the read loop are one update. -/
theorem foldl_blocks {computer : ChecksumComputer} {fed : Bytes} (h : computer.Fed fed)
    (blocks : List Bytes) :
    (blocks.foldl (fun computer block => if 0 < block.length then
        computer.update crc32cHardwareAvailable block else computer) computer).Fed
          (fed ++ blocks.flatten) ∧
      (blocks.foldl (fun computer block => if 0 < block.length then
        computer.update crc32cHardwareAvailable block else computer) computer).algorithm =
          computer.algorithm := by
  induction blocks generalizing computer fed with
  | nil =>
      rw [List.flatten_nil, List.append_nil]
      exact ⟨h, rfl⟩
  | cons block blocks ih =>
      rw [List.foldl_cons, List.flatten_cons, ← List.append_assoc]
      by_cases hpos : 0 < block.length
      · rw [if_pos hpos]
        obtain ⟨hfed, halg⟩ := ih (h.update crc32cHardwareAvailable block)
        exact ⟨hfed, halg.trans (ChecksumComputer.update_algorithm _ _ _)⟩
      · rw [if_neg hpos, List.eq_nil_of_length_eq_zero (by omega : block.length = 0),
          List.append_nil]
        exact ih h

theorem hashFile_eq_ok {computer computer' : ChecksumComputer} {fed : Bytes} {entry : HashEntry}
    (hfed : computer.Fed fed)
    (h : hashFile crc32cHardwareAvailable root computer entry = .ok computer') :
    computer'.Fed (fed ++ fileText entry.file) ∧ computer'.algorithm = computer.algorithm := by
  simp only [hashFile, bind_eq_ok] at h
  obtain ⟨_, -, size, hsize, _, -, _, -, h⟩ := h
  have hfile : entry.file = ⟨relativeText entry.location, size, entry.contents⟩ := by
    rcases hanswer : entry.fileSize with e | answer
    · rw [hanswer] at hsize
      cases hsize
    · rw [hanswer] at hsize
      rw [← Except.ok.inj hsize, HashEntry.file, hanswer]
      rfl
  have hhead := (((hfed.update crc32cHardwareAvailable (relativeText entry.location)).update
    crc32cHardwareAvailable [0]).update crc32cHardwareAvailable (decimal size)).update
    crc32cHardwareAvailable [0]
  obtain ⟨hbody, halg⟩ := @foldl_blocks crc32cHardwareAvailable _ _ hhead
    (readBlocks (1024 * 1024) entry.contents)
  rw [flatten_readBlocks (by decide)] at hbody
  rw [← Except.ok.inj h]
  refine ⟨?_, ?_⟩
  · have hend := hbody.update crc32cHardwareAvailable [0]
    have htext : fed ++ fileText entry.file = fed ++ relativeText entry.location ++ [0] ++
        decimal size ++ [0] ++ entry.contents ++ [0] := by
      simp only [fileText, hfile, List.append_assoc]
    rw [htext]
    exact hend
  · simp only [ChecksumComputer.update_algorithm, halg]

theorem foldlM_hashFile {computer computer' : ChecksumComputer} {fed : Bytes}
    {entries : List HashEntry} (hfed : computer.Fed fed)
    (h : entries.foldlM (hashFile crc32cHardwareAvailable root) computer = .ok computer') :
    computer'.Fed (fed ++ (entries.map HashEntry.file).flatMap fileText) ∧
      computer'.algorithm = computer.algorithm := by
  induction entries generalizing computer fed with
  | nil =>
      rw [← Except.ok.inj h, List.map_nil, List.flatMap_nil, List.append_nil]
      exact ⟨hfed, rfl⟩
  | cons entry entries ih =>
      rw [List.foldlM_cons, bind_eq_ok] at h
      obtain ⟨next, hnext, h⟩ := h
      obtain ⟨hfed', halg⟩ := hashFile_eq_ok hfed hnext
      obtain ⟨hend, halg'⟩ := ih hfed' h
      rw [List.map_cons, List.flatMap_cons, ← List.append_assoc]
      exact ⟨hend, halg'.trans halg⟩

/-- The hash is the checksum of the text. -/
theorem computeTreeVerificationHash_eq_ok {tree : HashTree} {hash : Bytes}
    (h : computeTreeVerificationHash crc32cHardwareAvailable root tree = .ok hash) :
    hash = ascii "crc32c:" ++ hex32 (crc32cOf (hashedText tree)) := by
  simp only [computeTreeVerificationHash, bind_eq_ok] at h
  obtain ⟨_, -, files, hfiles, computer, hcomputer, h⟩ := h
  obtain ⟨hfed, halg⟩ := foldlM_hashFile
    (ChecksumComputer.new_fed crc32cHardwareAvailable .crc32c .software) hcomputer
  have htext : (files.insertionSort fun left right =>
      relativeText left.location ≤ relativeText right.location).map HashEntry.file =
      tree.files.insertionSort pathBefore := by
    have hmap : files.map HashEntry.file = tree.files := by
      rcases hopened : tree.opened with - | -
      · rw [HashTree.scan, hopened, if_neg Bool.false_ne_true] at hfiles
        rw [HashTree.files, hopened, if_neg Bool.false_ne_true, ← Except.ok.inj hfiles,
          List.map_nil]
      · rw [HashTree.scan, hopened, if_pos rfl] at hfiles
        rw [HashTree.files, hopened, if_pos rfl, hashedEntries_eq_ok hfiles]
    rw [← hmap]
    exact List.map_insertionSort _ pathBefore HashEntry.file files fun _ _ _ _ => Iff.rfl
  rw [htext, List.nil_append] at hfed
  rw [← Except.ok.inj h, hfed.finalize, halg, ChecksumComputer.new_algorithm]
  rfl

end Text

/-! ### The text determines the files -/

/-- A file whose path holds no byte 0 and whose size is that of its contents. -/
abbrev SettledFile := {file : HashedFile // 0 ∉ file.path ∧ file.size = file.contents.length}

theorem zero_notMem_decimal (n : Nat) : 0 ∉ decimal n := by
  intro h
  exact absurd (isDigit_of_mem_decimal h) (by decide)

/-- The parts of the text of a file. -/
abbrev FileParts := Σ _ : {path : Bytes // 0 ∉ path}, Σ digits : {text : Bytes // 0 ∉ text},
  {contents : Bytes // contents.length = decimalValue digits.val}

def fileParts (file : SettledFile) : FileParts :=
  ⟨⟨file.val.path, file.property.1⟩, ⟨decimal file.val.size, zero_notMem_decimal _⟩,
    file.val.contents, by rw [decimalValue_decimal, file.property.2]⟩

theorem fileParts_injective : Function.Injective fileParts := by
  rintro ⟨⟨path, size, contents⟩, hzero, hsize⟩ ⟨⟨path', size', contents'⟩, hzero', hsize'⟩ heq
  have hpath : path = path' := congrArg (fun parts : FileParts => parts.1.val) heq
  have hcontents : contents = contents' := congrArg (fun parts : FileParts => parts.2.2.val) heq
  have hlength : size = size' := by
    dsimp only at hsize hsize'
    rw [hsize, hsize', hcontents]
  apply Subtype.ext
  rw [HashedFile.mk.injEq]
  exact ⟨hpath, hlength, hcontents⟩

/-- The path ends at the first 0, the size at the next one, and the contents have
that size. -/
theorem selfDelimiting_fileText :
    SelfDelimiting fun file : SettledFile => fileText file.val := by
  have hcontents : ∀ digits : {text : Bytes // 0 ∉ text},
      SelfDelimiting fun text : {text : Bytes // text.length = decimalValue digits.val} =>
        text.val ++ [0] :=
    fun digits => selfDelimiting_ofLength (decimalValue digits.val) [0]
  have hsize := (selfDelimiting_terminated (0 : UInt8)).followedBy hcontents
  exact ((selfDelimiting_terminated (0 : UInt8)).followedBy fun _ => hsize).comp
    fileParts_injective

theorem flatMap_fileText_injective {files files' : List HashedFile}
    (h : ∀ file ∈ files, 0 ∉ file.path ∧ file.size = file.contents.length)
    (h' : ∀ file ∈ files', 0 ∉ file.path ∧ file.size = file.contents.length)
    (heq : files.flatMap fileText = files'.flatMap fileText) : files = files' := by
  obtain ⟨settled, rfl⟩ := CanLift.prf (β := List SettledFile) files h
  obtain ⟨settled', rfl⟩ := CanLift.prf (β := List SettledFile) files' h'
  rw [List.flatMap_map, List.flatMap_map] at heq
  have hne : ∀ file : SettledFile, fileText file.val ≠ [] := by
    intro file
    rw [fileText, List.append_assoc]
    exact List.append_ne_nil_of_right_ne_nil _ (List.cons_ne_nil _ _)
  rw [selfDelimiting_fileText.flatMap_injective hne heq]

/-! ### The order of the scan does not matter -/

theorem HashTree.paths_nodup (tree : HashTree) : (tree.files.map HashedFile.path).Nodup := by
  rw [HashTree.files]
  split
  · rw [List.map_map]
    have hpaths : (tree.entries.filter HashEntry.isHashed).map (HashedFile.path ∘ HashEntry.file) =
        ((tree.entries.filter HashEntry.isHashed).map fun entry => entry.location).map
          relativeText := by
      rw [List.map_map]
      rfl
    rw [hpaths]
    exact (tree.distinct.sublist (List.filter_sublist.map _)).map fun _ _ =>
      relativeText_injective
  · exact List.nodup_nil

/-- Lists of files with different paths are sorted into the same list exactly if
they hold the same files. -/
theorem insertionSort_eq_iff_perm {files files' : List HashedFile}
    (h : (files.map HashedFile.path).Nodup) :
    files.insertionSort pathBefore = files'.insertionSort pathBefore ↔ files.Perm files' := by
  have hsort : ∀ l : List HashedFile, (l.insertionSort pathBefore).Perm l :=
    fun l => List.perm_insertionSort _ l
  constructor
  · intro heq
    exact (hsort files).symm.trans (heq ▸ hsort files')
  · intro hperm
    have hsorted : (files.insertionSort pathBefore).Perm (files'.insertionSort pathBefore) :=
      (hsort files).trans (hperm.trans (hsort files').symm)
    refine hsorted.eq_of_pairwise ?_ (List.pairwise_insertionSort _ _)
      (List.pairwise_insertionSort _ _)
    intro file file' hfile hfile' hbefore hafter
    have hmem : file ∈ files := (hsort files).mem_iff.mp hfile
    have hmem' : file' ∈ files := hperm.mem_iff.mpr ((hsort files').mem_iff.mp hfile')
    exact List.inj_on_of_nodup_map h hmem hmem' (List.le_antisymm hbefore hafter)

theorem hashedText_eq_iff {first second : HashTree} (hfirst : first.Settled)
    (hsecond : second.Settled) :
    hashedText first = hashedText second ↔ first.files.Perm second.files := by
  have hsettled : ∀ {tree : HashTree}, tree.Settled →
      ∀ file ∈ tree.files.insertionSort pathBefore,
        0 ∉ file.path ∧ file.size = file.contents.length := by
    intro tree htree file hfile
    have hmem : file ∈ tree.files := (List.perm_insertionSort _ _).mem_iff.mp hfile
    exact ⟨htree.path file hmem, htree.size file hmem⟩
  rw [← insertionSort_eq_iff_perm first.paths_nodup]
  constructor
  · exact fun h => flatMap_fileText_injective (hsettled hfirst) (hsettled hsecond) h
  · intro h
    rw [hashedText, hashedText, h]

/-! ### Files that differ in a few bytes -/

/-- The same files but for one, in which up to four bytes in a row differ. -/
def DifferByBurst (files files' : List HashedFile) : Prop :=
  ∃ (path before old new after : Bytes) (size : Nat) (rest : List HashedFile),
    old.length = new.length ∧ old.length ≤ 4 ∧ old ≠ new ∧
    files.Perm (⟨path, size, before ++ old ++ after⟩ :: rest) ∧
    files'.Perm (⟨path, size, before ++ new ++ after⟩ :: rest)

/-- Another file of the same path takes the same place. -/
theorem insertionSort_replace {file file' : HashedFile} {rest : List HashedFile}
    (hpath : file'.path = file.path) (h : ((file :: rest).map HashedFile.path).Nodup) :
    ∃ front back, (file :: rest).insertionSort pathBefore = front ++ file :: back ∧
      (file' :: rest).insertionSort pathBefore = front ++ file' :: back := by
  have hperm : ((file :: rest).insertionSort pathBefore).Perm (file :: rest) :=
    List.perm_insertionSort _ _
  obtain ⟨front, back, hsplit⟩ :=
    List.append_of_mem (hperm.mem_iff.mpr List.mem_cons_self)
  rw [hsplit] at hperm
  refine ⟨front, back, hsplit, ?_⟩
  have hothers : (front ++ back).Perm rest :=
    (List.perm_middle.symm.trans hperm).cons_inv
  have hperm' : (front ++ file' :: back).Perm (file' :: rest) :=
    List.perm_middle.trans (hothers.cons file')
  have hsorted : (front ++ file :: back).Pairwise pathBefore := by
    rw [← hsplit]
    exact List.pairwise_insertionSort _ _
  have hsorted' : (front ++ file' :: back).Pairwise pathBefore := by
    rw [List.pairwise_append, List.pairwise_cons] at hsorted ⊢
    obtain ⟨hfront, ⟨hbehind, hback⟩, hacross⟩ := hsorted
    refine ⟨hfront, ⟨fun other hother => ?_, hback⟩, fun other hother next hnext => ?_⟩
    · rw [pathBefore, hpath]
      exact hbehind other hother
    · rcases List.mem_cons.mp hnext with rfl | hnext
      · rw [pathBefore, hpath]
        exact hacross other hother file List.mem_cons_self
      · exact hacross other hother next (List.mem_cons_of_mem _ hnext)
  have hnodup : ((front ++ file' :: back).map HashedFile.path).Nodup := by
    have hsame : ((file' :: rest).map HashedFile.path) = (file :: rest).map HashedFile.path := by
      rw [List.map_cons, List.map_cons, hpath]
    rw [(hperm'.map _).nodup_iff, hsame]
    exact h
  rw [← (insertionSort_eq_iff_perm hnodup).mpr hperm']
  exact hsorted'.insertionSort_eq

theorem hashedText_burst {first second : HashTree} (h : DifferByBurst first.files second.files) :
    ∃ a x y b, x.length = y.length ∧ x.length ≤ 4 ∧ x ≠ y ∧
      hashedText first = a ++ x ++ b ∧ hashedText second = a ++ y ++ b := by
  obtain ⟨path, before, old, new, after, size, rest, hlength, hle, hne, hfirst, hsecond⟩ := h
  have hnodup : (((⟨path, size, before ++ old ++ after⟩ : HashedFile) :: rest).map
      HashedFile.path).Nodup := (hfirst.map _).nodup_iff.mp first.paths_nodup
  have hpath : (⟨path, size, before ++ new ++ after⟩ : HashedFile).path =
      (⟨path, size, before ++ old ++ after⟩ : HashedFile).path := rfl
  obtain ⟨front, back, hsorted, hsorted'⟩ := insertionSort_replace hpath hnodup
  refine ⟨front.flatMap fileText ++ (path ++ [0] ++ (decimal size ++ [0] ++ before)), old, new,
    after ++ [0] ++ back.flatMap fileText, hlength, hle, hne, ?_, ?_⟩
  · rw [hashedText, (insertionSort_eq_iff_perm first.paths_nodup).mpr hfirst, hsorted,
      List.flatMap_append, List.flatMap_cons]
    simp only [fileText, List.append_assoc]
  · rw [hashedText, (insertionSort_eq_iff_perm second.paths_nodup).mpr hsecond, hsorted',
      List.flatMap_append, List.flatMap_cons]
    simp only [fileText, List.append_assoc]

/-! ### What equal hashes mean -/

theorem hex32_injective : Function.Injective hex32 := by
  intro v v' h
  have hparsed := congrArg (parseHex32 · []) h
  simpa only [parseHex32_hex32, Except.ok.injEq] using hparsed

/-- A file that is read without an error. -/
def readableFile (name : Name) (contents : Bytes) : HashEntry where
  parents := []
  name := name
  isSymlink := .ok false
  isDirectory := .ok false
  isRegularFile := .ok true
  relative := .ok ()
  fileSize := .ok contents.length
  mtime := .ok 0
  relativeAgain := .ok ()
  opens := true
  contents := contents
  eof := true

def uploadedTree : HashTree where
  rootExists := true
  rootIsDirectory := true
  opened := true
  entries := [readableFile nameB [7], readableFile nameA [1, 2]]
  distinct := by decide

/-- The same files, with what an interrupted transfer left. -/
def receivedTree : HashTree where
  rootExists := true
  rootIsDirectory := true
  opened := true
  entries := [readableFile nameA [1, 2], readableFile ⟨ascii "a.part.t", by decide +kernel⟩ [1],
    readableFile nameB [7]]
  distinct := by decide +kernel

end GridFlux
