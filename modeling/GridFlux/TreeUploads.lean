/-
GridFlux/TreeUploads.lean

`runTreeUploadClient` of `tree_transfer_client.cpp` over its whole life: a scan
or the manifest of an earlier run, the comparison of the two, and the workers.

A scan finds no path twice, so the manifest of an upload can always be read back
(`treeUpload_survives`).
-/
import GridFlux.TreeRuns
import GridFlux.UploadPreflight

namespace GridFlux

open Transition TextCodec

/-! ### Before the workers start -/

/-- What the system answers until the workers start. -/
structure UploadStart where
  tree : LocalTree
  order : IterationOrder
  random : Nat → Fin 32 → UInt32
  createdAt : Nat
  opened : Except Status Unit
  saving : Saving

/-- The answers are within the range of their types. -/
structure UploadStart.Fits (start : UploadStart) : Prop where
  createdAt : start.createdAt < 2 ^ 64
  now : start.saving.now < 2 ^ 64
  size : ∀ entry ∈ start.tree.entries, ∀ size, entry.fileSize = .ok size → size < 2 ^ 64
  mtime : ∀ entry ∈ start.tree.entries, ∀ mtime, entry.mtime = .ok mtime →
    -2 ^ 63 ≤ mtime ∧ mtime < 2 ^ 63

/-- The manifest of a new upload. -/
def newUploadManifest (request : TreeRequest) (start : UploadStart) (files : List TreeFileInfo) :
    TreeManifest where
  version := kTreeManifestVersion
  mode := .upload
  rootLogicalPath := request.sourceDir
  checksumAlgorithm := request.checksumAlgorithm
  createdAtUnixNanos := start.createdAt
  updatedAtUnixNanos := start.createdAt
  files := files.mapIdx fun i file => ⟨file.relativePath, file.size, file.mtimeUnixSeconds,
    generateTransferId (start.random i), .pending, []⟩

/-- The first part of `runTreeUploadClient`: the manifest is loaded, or made and
saved.  The second component is the file. -/
def loadOrMakeUpload (request : TreeRequest) (start : UploadStart) (disk : Option Bytes) :
    Except Status TreeManifest × Option Bytes :=
  if request.resume then
    match loadTreeManifest start.opened disk with
    | .error e => (.error e, disk)
    | .ok manifest =>
        if manifest.mode ≠ .upload ∨ manifest.rootLogicalPath ≠ request.sourceDir ∨
            manifest.checksumAlgorithm ≠ request.checksumAlgorithm then
          (.error (.invalidArgument (ascii "tree upload manifest does not match request")), disk)
        else (.ok manifest, disk)
  else
    match scanLocalTree request.sourceDir start.tree with
    | .error e => (.error e, disk)
    | .ok files =>
        let made : SchedulerState :=
          { manifest := newUploadManifest request start files, disk := disk.getD [] }
        match made.saveManifest start.saving with
        | (.error e, _) => (.error e, disk)
        | (.ok _, saved) => (.ok saved.manifest, some saved.disk)

/-- `runTreeUploadClient` up to the scheduler. -/
def prepareTreeUpload (request : TreeRequest) (start : UploadStart) (disk : Option Bytes) :
    Except Status TreeManifest × Option Bytes :=
  match loadOrMakeUpload request start disk with
  | (.error e, disk) => (.error e, disk)
  | (.ok manifest, none) => (.ok manifest, none)
  | (.ok manifest, some text) =>
      match preflightUploadResume request.toTreeTransferOptions start.tree start.order
          start.saving { manifest := manifest, disk := text } with
      | (.error e, s) => (.error e, some s.disk)
      | (.ok _, s) => (.ok s.manifest, some s.disk)

def uploadClient : TreeClient where
  mode := .upload
  Start := UploadStart
  Fits := UploadStart.Fits
  prepare request start disk := some (prepareTreeUpload request start disk)

/-- Uploads of one directory. -/
def treeUpload (sourceDir : Bytes) : System TreeLife (TreeEvent UploadStart) :=
  treeTransfer uploadClient sourceDir

/-! ### What the preparation can do -/

/-- The preflight lets the upload go on as it is, or stops it. -/
theorem preflightUploadResume_cases (options : TreeTransferOptions) (tree : LocalTree)
    (order : IterationOrder) (saving : Saving) (manifest : TreeManifest) (text : Bytes) :
    preflightUploadResume options tree order saving { manifest := manifest, disk := text } =
        (.ok (), { manifest := manifest, disk := text }) ∨
      ∃ e s, preflightUploadResume options tree order saving
          { manifest := manifest, disk := text } = (.error e, s) ∧
        (s.disk = text ∨ ∃ index message,
          serializeTreeManifest (changedManifest manifest text index message saving.now) =
            .ok s.disk) := by
  rw [preflightUploadResume]
  split
  · exact .inl rfl
  rcases hscan : scanLocalTree options.sourceDir tree with e | scanned
  · exact .inr ⟨e, _, rfl, .inl rfl⟩
  dsimp only
  rcases firstChanged (currentFiles scanned) 0 manifest.files with - | ⟨index, message⟩
  · rcases firstAdded manifest.files (order.walk (currentFiles scanned)) with - | message
    · exact .inl rfl
    · exact .inr ⟨_, _, rfl, .inl rfl⟩
  · obtain ⟨e, s, hmark, hdisk⟩ := markManifestChanged_cases manifest text index message saving
    exact .inr ⟨e, s, hmark, hdisk.imp_right fun htext => ⟨index, message, htext⟩⟩

/-- The manifest a new upload starts with, saved. -/
def savedUploadManifest (request : TreeRequest) (start : UploadStart)
    (files : List TreeFileInfo) : TreeManifest :=
  { newUploadManifest request start files with updatedAtUnixNanos := start.saving.now }

/-! ### New manifests -/

theorem mapError_eq_ok {ε ε' α : Type} {f : ε → ε'} {x : Except ε α} {a : α}
    (h : x.mapError f = .ok a) : x = .ok a := by
  rcases x with e | b
  · cases h
  · exact congrArg _ (Except.ok.inj h)

theorem mem_scanEntries {root : Bytes} {entries : List ScanEntry} {files : List TreeFileInfo}
    (h : scanEntries root entries = .ok files) :
    ∀ file ∈ files, ∃ entry ∈ entries, entry.fileSize = .ok file.size ∧
      entry.mtime = .ok file.mtimeUnixSeconds := by
  induction entries generalizing files with
  | nil =>
      cases h
      intro file hfile
      cases hfile
  | cons entry rest ih =>
      simp only [scanEntries, bind_eq_ok] at h
      obtain ⟨found, hfound, others, hothers, h⟩ := h
      cases h
      intro file hfile
      rcases List.mem_append.mp hfile with hfile | hfile
      · obtain rfl := Option.mem_toList.mp hfile
        simp only [scanEntry, bind_eq_ok] at hfound
        obtain ⟨-, -, -, -, directory, -, hfound⟩ := hfound
        split at hfound
        · cases hfound
        · simp only [bind_eq_ok] at hfound
          obtain ⟨-, -, -, -, -, -, size, hsize, mtime, hmtime, hfound⟩ := hfound
          cases hfound
          exact ⟨entry, List.mem_cons_self, mapError_eq_ok hsize, mapError_eq_ok hmtime⟩
      · obtain ⟨entry', hentry', hok⟩ := ih hothers file hfile
        exact ⟨entry', List.mem_cons_of_mem _ hentry', hok⟩

theorem sourceKeys_uploadManifest (request : TreeRequest) (start : UploadStart)
    (files : List TreeFileInfo) :
    (savedUploadManifest request start files).files.map TreeFileRecord.sourceKey =
      files.map TreeFileInfo.key := by
  apply List.ext_getElem?
  intro i
  rw [List.getElem?_map, List.getElem?_map]
  show Option.map _ ((files.mapIdx _)[i]?) = _
  rw [List.getElem?_mapIdx, Option.map_map]
  rfl

theorem savedUploadManifest_begins {request : TreeRequest} {start : UploadStart}
    {files : List TreeFileInfo} (hfits : start.Fits)
    (hscan : scanLocalTree request.sourceDir start.tree = .ok files) :
    (savedUploadManifest request start files).Begins .upload request.sourceDir := by
  refine ⟨rfl, rfl, ⟨hfits.createdAt, hfits.now, fun record hmem => ?_⟩, fun record hmem => ?_⟩
  · have hkey : record.sourceKey ∈ files.map TreeFileInfo.key :=
      sourceKeys_uploadManifest request start files ▸ List.mem_map_of_mem hmem
    obtain ⟨file, hfile, hsame⟩ := List.mem_map.mp hkey
    simp only [scanLocalTree, bind_eq_ok] at hscan
    obtain ⟨-, -, -, -, -, -, found, hfound, hscan⟩ := hscan
    cases hscan
    obtain ⟨entry, hentry, hsize, hmtime⟩ :=
      mem_scanEntries hfound file ((List.perm_insertionSort _ found).mem_iff.mp hfile)
    obtain ⟨hlow, hhigh⟩ := hfits.mtime entry hentry _ hmtime
    obtain ⟨-, hrest⟩ := Prod.mk.inj hsame
    obtain ⟨hsize', hmtime'⟩ := Prod.mk.inj hrest
    exact ⟨hsize' ▸ hfits.size entry hentry _ hsize, hmtime' ▸ hlow, hmtime' ▸ hhigh⟩
  · obtain ⟨i, hi, rfl⟩ := List.mem_mapIdx.mp hmem
    rfl

theorem savedUploadManifest_distinct {request : TreeRequest} {start : UploadStart}
    {files : List TreeFileInfo}
    (hscan : scanLocalTree request.sourceDir start.tree = .ok files) :
    (savedUploadManifest request start files).Distinct := by
  have hpaths := congrArg (List.map Prod.fst) (sourceKeys_uploadManifest request start files)
  rw [List.map_map, List.map_map] at hpaths
  show ((savedUploadManifest request start files).files.map
    (Prod.fst ∘ TreeFileRecord.sourceKey)).Nodup
  rw [hpaths]
  exact scanLocalTree_distinct hscan

/-- What `prepareTreeUpload` comes to, and that what it makes has no path
twice. -/
theorem prepared_upload (request : TreeRequest) {start : UploadStart} (hfits : start.Fits)
    (disk : Option Bytes) :
    Prepared .upload request disk (prepareTreeUpload request start disk) ∧
      (request.resume = false → ∀ manifest disk',
        prepareTreeUpload request start disk = (.ok manifest, disk') → manifest.Distinct) := by
  rw [prepareTreeUpload, loadOrMakeUpload]
  by_cases hresume : request.resume = true
  · refine ⟨?_, fun hnew => ?_⟩
    · rw [if_pos hresume]
      rcases hload : loadTreeManifest start.opened disk with e | loaded
      · exact .refused e
      obtain ⟨text, rfl, hparse⟩ := loadTreeManifest_ok hload
      dsimp only
      split_ifs
      · exact .refused _
      dsimp only
      rcases preflightUploadResume_cases request.toTreeTransferOptions start.tree start.order
        start.saving loaded text with hgo | ⟨e, s, hstop, hdisk | ⟨index, message, htext⟩⟩
      · rw [hgo]
        exact .resumed hresume rfl hparse
      · rw [hstop]
        dsimp only
        rw [hdisk]
        exact .refused e
      · rw [hstop]
        exact .marked e rfl hparse hfits.now htext
    · rw [hnew] at hresume
      cases hresume
  · have hnew : request.resume = false := by rwa [Bool.not_eq_true] at hresume
    rw [if_neg hresume]
    rcases hscan : scanLocalTree request.sourceDir start.tree with e | files
    · exact ⟨.refused e, fun _ manifest disk' h => (by cases h)⟩
    dsimp only
    rcases SchedulerState.saveManifest_eq
      ({ manifest := newUploadManifest request start files, disk := disk.getD [] } :
        SchedulerState) start.saving with ⟨e, hsave⟩ | ⟨text, htext, hsave⟩
    · rw [hsave]
      exact ⟨.refused e, fun _ manifest disk' h => (by cases h)⟩
    · rw [hsave]
      dsimp only
      rw [preflightUploadResume, if_pos hnew]
      refine ⟨.made hnew (savedUploadManifest_begins hfits hscan) htext,
        fun _ manifest disk' h => ?_⟩
      cases h
      exact savedUploadManifest_distinct hscan

theorem uploadClient_lawful : uploadClient.Lawful := by
  intro request start disk outcome hfits hprepare
  cases hprepare
  exact (prepared_upload request hfits disk).1

/-- The manifest of an upload has no path twice. -/
theorem made_distinct {sourceDir : Bytes} {life : TreeLife}
    (h : (treeUpload sourceDir).Reachable life) :
    ∀ made, life.made = some made → made.Distinct := by
  refine System.Reachable.invariant
    (I := fun life => ∀ made, life.made = some made → made.Distinct) ?_ ?_ h
  · rintro life ⟨-, hmade, -⟩ made hsome
    rw [hmade] at hsome
    cases hsome
  · rintro (⟨request, start⟩ | - | -) life life' - hdistinct hstep
    · obtain ⟨outcome, -, -, hfits, hprepare, rfl⟩ := hstep
      intro made hmade
      change some (prepareTreeUpload request start life.disk) = some outcome at hprepare
      rcases outcome with ⟨e | begun, disk⟩
      · exact hdistinct made hmade
      · change (if request.resume then life.made else some begun) = some made at hmade
        by_cases hresume : request.resume = true
        · rw [if_pos hresume] at hmade
          exact hdistinct made hmade
        · rw [if_neg hresume] at hmade
          cases hmade
          exact (prepared_upload request hfits life.disk).2 (by rwa [Bool.not_eq_true] at hresume)
            _ _ (Option.some.inj hprepare)
    · obtain ⟨run, w, shared, worker, acknowledged, -, -, -, rfl⟩ := hstep
      exact hdistinct
    · obtain rfl := hstep
      exact hdistinct

/-! ### Resuming -/

/-- As long as the tree has the files of the manifest, an upload can be resumed. -/
theorem TreeLife.Saved.resumes_upload {life : TreeLife} {sourceDir : Bytes}
    {made saved : TreeManifest} (h : Saved life made saved)
    (hbegins : made.Begins .upload sourceDir)
    {request : TreeRequest} {start : UploadStart} {scanned : List TreeFileInfo}
    (hsource : request.sourceDir = sourceDir) (hresume : request.resume = true)
    (halgorithm : request.checksumAlgorithm = made.checksumAlgorithm)
    (hopened : start.opened = .ok ())
    (hscan : scanLocalTree sourceDir start.tree = .ok scanned)
    (hsame : SameFiles scanned made.files) :
    prepareTreeUpload request start life.disk = (.ok saved, life.disk) := by
  obtain ⟨⟨text, hdisk, hparse⟩, hcontinues, -⟩ := h
  have hmatch : ¬(saved.mode ≠ .upload ∨ saved.rootLogicalPath ≠ request.sourceDir ∨
      saved.checksumAlgorithm ≠ request.checksumAlgorithm) := by
    rw [hcontinues.mode, hcontinues.root, hcontinues.algorithm, hbegins.mode, hbegins.root,
      hsource, halgorithm]
    rintro (hne | hne | hne)
    · exact hne rfl
    · exact hne rfl
    · exact hne rfl
  have hsaved : SameFiles scanned saved.files := fun key =>
    (hsame key).trans hcontinues.sources.mem_iff.symm
  obtain ⟨hchanged, hadded⟩ :=
    (sameFiles_iff (scanLocalTree_distinct hscan) start.order).mp hsaved
  have hresumed : ¬request.resume = false := by
    rw [hresume]
    exact Bool.noConfusion
  rw [prepareTreeUpload, loadOrMakeUpload, if_pos hresume, hopened, hdisk, loadTreeManifest, hparse]
  dsimp only
  rw [if_neg hmatch]
  dsimp only
  rw [preflightUploadResume, if_neg hresumed, hsource, hscan]
  dsimp only
  rw [hchanged]
  dsimp only
  rw [hadded]

/-- **A tree upload survives its clients.**  Once a new upload has saved its
manifest, then after any runs of the client, new or resumed, killed at any
moment, with any saves failing and whatever the server answers: the file reads as
a manifest of this upload with exactly the files that were found at the
beginning; of these only such are completed that the server has acknowledged
since; it is complete when a client has ended without an error; and while the
source tree has these files, the upload can be resumed, with what the file says. -/
theorem treeUpload_survives {sourceDir : Bytes} {life : TreeLife}
    (h : (treeUpload sourceDir).Reachable life) {made : TreeManifest}
    (hmade : life.made = some made) :
    made.Begins .upload sourceDir ∧
    ∃ text saved, life.disk = some text ∧ parseTreeManifest text = .ok saved ∧
      life.Survives made saved ∧
      ∀ (request : TreeRequest) (start : UploadStart) (scanned : List TreeFileInfo),
        request.sourceDir = sourceDir → request.resume = true →
        request.checksumAlgorithm = made.checksumAlgorithm → start.opened = .ok () →
        scanLocalTree sourceDir start.tree = .ok scanned → SameFiles scanned made.files →
        prepareTreeUpload request start life.disk = (.ok saved, life.disk) := by
  have hok := TreeLife.ok_of_reachable uploadClient_lawful h
  obtain ⟨saved, hsaved⟩ := hok.saved made hmade (made_distinct h made hmade)
  obtain ⟨text, hdisk, hparse⟩ := hsaved.reads
  exact ⟨hok.made made hmade, text, saved, hdisk, hparse, hok.survives hsaved,
    fun _ _ _ hsource hresume halgorithm hopened hscan hsame =>
      hsaved.resumes_upload (hok.made made hmade) hsource hresume halgorithm hopened hscan hsame⟩

/-! ### A client that is killed at once -/

def oneFileRequest : TreeRequest where
  sourceDir := ascii "src"
  destDir := ascii "d"
  checksumAlgorithm := .crc32c

/-- A tree of one file. -/
def oneFileStart : UploadStart where
  tree := grownTree
  order := ⟨List.reverse, List.reverse_perm⟩
  random _ _ := 0
  createdAt := 7
  opened := .ok ()
  saving := ⟨8, .ok ()⟩

def killedUpload : TreeLife :=
  let life := TreeLife.began ⟨none, none, none, []⟩ oneFileRequest
    (prepareTreeUpload oneFileRequest oneFileStart none)
  { life with run := none, earlier := life.acknowledged }

theorem killedUpload_reachable : (treeUpload (ascii "src")).Reachable killedUpload := by
  have hfits : oneFileStart.Fits := by
    refine ⟨by decide, by decide, fun entry hentry size hsize => ?_,
      fun entry hentry mtime hmtime => ?_⟩
    · obtain rfl := List.mem_singleton.mp hentry
      cases hsize
      decide
    · obtain rfl := List.mem_singleton.mp hentry
      cases hmtime
      decide
  have hempty : (treeUpload (ascii "src")).Reachable ⟨none, none, none, []⟩ :=
    .initial ⟨rfl, rfl, rfl⟩
  have hstarted : (treeUpload (ascii "src")).step (.start oneFileRequest oneFileStart)
      ⟨none, none, none, []⟩ (TreeLife.began ⟨none, none, none, []⟩ oneFileRequest
        (prepareTreeUpload oneFileRequest oneFileStart none)) :=
    ⟨_, rfl, rfl, hfits, rfl, rfl⟩
  have hleft : (treeUpload (ascii "src")).step .leave
      (TreeLife.began ⟨none, none, none, []⟩ oneFileRequest
        (prepareTreeUpload oneFileRequest oneFileStart none)) killedUpload := rfl
  exact (hempty.step hstarted).step hleft

/-- What is left can be resumed. -/
theorem treeUpload_survives_killed :
    ∃ saved, (saved.files.map TreeFileRecord.sourceKey).Perm [(ascii "a", 4, 9)] ∧
      prepareTreeUpload { oneFileRequest with resume := true } oneFileStart killedUpload.disk =
        (.ok saved, killedUpload.disk) := by
  have hmade : killedUpload.made = some (savedUploadManifest oneFileRequest oneFileStart
      [⟨ascii "a", ascii "src/a", 4, 9⟩]) := by
    decide +kernel
  obtain ⟨-, text, saved, -, -, hsurvives, hresumes⟩ :=
    treeUpload_survives killedUpload_reachable hmade
  refine ⟨saved, hsurvives.sources, ?_⟩
  exact hresumes { oneFileRequest with resume := true } oneFileStart
    [⟨ascii "a", ascii "src/a", 4, 9⟩] rfl rfl rfl rfl (by decide) fun key => Iff.rfl

end GridFlux
