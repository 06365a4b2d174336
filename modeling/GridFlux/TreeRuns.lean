/-
GridFlux/TreeRuns.lean

The manifest of a tree transfer over the runs of its client: `runTreeUploadClient`
or `runTreeDownloadClient` of `tree_transfer_client.cpp`, started any number of
times, new or resumed, and killed at any moment.

The two directions differ in what they do before the workers start; `Prepared`
says what both leave there.  The manifest is written by a rename, so the file is
always what some save of some run has written (`TreeLife.Ok`).  Two facts carry
over from one run to the next: what a run leaves holds the files of the manifest
that the last new transfer made, and of them only those are completed that the
server has acknowledged since.
-/
import GridFlux.TreePhases
import GridFlux.TreeRoundTrip
import GridFlux.World

namespace GridFlux

open Transition TextCodec

/-! ### Before the workers start -/

/-- The options of a tree transfer with the algorithm its manifest names. -/
structure TreeRequest extends TreeTransferOptions where
  checksumAlgorithm : ChecksumAlgorithm

def loadTreeManifest (opened : Except Status Unit) (disk : Option Bytes) :
    Except Status TreeManifest :=
  match opened, disk with
  | .error e, _ => .error e
  | .ok _, none => .error (.systemError (ascii "open tree manifest failed: ") World.kErrNoEntry)
  | .ok _, some text => parseTreeManifest text

theorem loadTreeManifest_ok {opened : Except Status Unit} {disk : Option Bytes}
    {manifest : TreeManifest} (h : loadTreeManifest opened disk = .ok manifest) :
    ∃ text, disk = some text ∧ parseTreeManifest text = .ok manifest := by
  rcases opened with e | u
  · cases h
  · rcases disk with - | text
    · cases h
    · exact ⟨text, rfl, h⟩

/-- A client of one direction up to the moment its workers start: from what the
system answers and the manifest file to the manifest they get, or an error, and
the file.  There is no result as long as the client is still at it. -/
structure TreeClient where
  mode : TreeTransferMode
  Start : Type
  Fits : Start → Prop
  prepare : TreeRequest → Start → Option Bytes →
    Option (Except Status TreeManifest × Option Bytes)

/-! ### The life of a manifest -/

/-- A client whose workers have started with the manifest `begun`. -/
structure TreeRun where
  request : TreeRequest
  begun : TreeManifest
  scheduler : TreeScheduler
    (workerCount request.toTreeTransferOptions begun.files.length)
  acknowledged : List Nat

/-- The paths that the server has acknowledged in this run. -/
def TreeRun.paths (run : TreeRun) : List Bytes :=
  run.acknowledged.filterMap fun i => run.begun.files[i]?.map TreeFileRecord.relativePath

/-- The manifest file and the client, if one is at work.  `made` is the manifest
that the last new transfer has written, `earlier` what has been acknowledged in
the runs since, before this one. -/
structure TreeLife where
  disk : Option Bytes
  run : Option TreeRun := none
  made : Option TreeManifest := none
  earlier : List Bytes := []

namespace TreeLife

variable (life : TreeLife)

/-- All that has been acknowledged since the manifest was made. -/
def acknowledged : List Bytes :=
  match life.run with
  | none => life.earlier
  | some run => run.paths ++ life.earlier

/-- A client has got as far as this. -/
def began (request : TreeRequest) :
    Except Status TreeManifest × Option Bytes → TreeLife
  | (.error _, disk) => { life with disk := disk }
  | (.ok begun, disk) =>
      { disk := disk
        run := some ⟨request, begun,
          ⟨{ manifest := begun, disk := disk.getD [] }, fun _ => .looking⟩, []⟩
        made := if request.resume then life.made else some begun
        earlier := if request.resume then life.earlier else [] }

end TreeLife

inductive TreeEvent (Start : Type)
  | start (request : TreeRequest) (start : Start)
  | worker
  | leave

/-- Transfers of one directory, one after the other.  A client may leave at any
moment: it has returned, or it was killed. -/
def treeTransfer (client : TreeClient) (sourceDir : Bytes) :
    System TreeLife (TreeEvent client.Start) where
  initial life := life.run = none ∧ life.made = none ∧ life.earlier = []
  step event life life' :=
    match event with
    | .start request start => ∃ outcome,
        life.run = none ∧ request.sourceDir = sourceDir ∧ client.Fits start ∧
          client.prepare request start life.disk = some outcome ∧
          life' = life.began request outcome
    | .worker => ∃ run w shared worker acknowledged, life.run = some run ∧
        ObservedStep run.request.maxFiles
          (processFile client.mode run.request.toTreeTransferOptions) (Fin.val w)
          run.scheduler.shared (run.scheduler.workers w) run.acknowledged shared worker
          acknowledged ∧
        shared.manifest.updatedAtUnixNanos < 2 ^ 64 ∧
        life' = { life with
          disk := some shared.disk
          run := some { run with
            scheduler := ⟨shared, Function.update run.scheduler.workers w worker⟩
            acknowledged := acknowledged } }
    | .leave => life' = { life with run := none, earlier := life.acknowledged }

/-! ### What the preparation can do -/

/-- The record with this index is marked and the manifest saved. -/
def changedManifest (manifest : TreeManifest) (text : Bytes) (index : Nat) (message : Bytes)
    (now : Nat) : TreeManifest :=
  SchedulerState.recordChanged { manifest := manifest, disk := text } index
    (fun record => { record with status := .changed, error := message }) now

theorem markManifestChanged_cases (manifest : TreeManifest) (text : Bytes) (index : Nat)
    (message : Bytes) (saving : Saving) :
    ∃ e s, markManifestChanged { manifest := manifest, disk := text } index message saving =
        (.error e, s) ∧
      (s.disk = text ∨
        serializeTreeManifest (changedManifest manifest text index message saving.now) =
          .ok s.disk) := by
  rcases SchedulerState.saveManifest_eq
    ({ manifest := { manifest with files := manifest.files.modify index fun record =>
         { record with status := .changed, error := message } }, disk := text } : SchedulerState)
    saving with ⟨e, hsave⟩ | ⟨text', htext, hsave⟩
  · exact ⟨e, _, by rw [markManifestChanged, hsave], .inl rfl⟩
  · refine ⟨.invalidArgument message,
      { manifest := changedManifest manifest text index message saving.now, disk := text' }, ?_,
      .inr htext⟩
    rw [markManifestChanged, hsave]
    rfl

/-- A manifest of a new transfer. -/
structure TreeManifest.Begins (mode : TreeTransferMode) (sourceDir : Bytes)
    (manifest : TreeManifest) : Prop where
  mode : manifest.mode = mode
  root : manifest.rootLogicalPath = sourceDir
  fits : manifest.Fits
  pending : ∀ record ∈ manifest.files, record.status = .pending

/-- No file stands in the manifest twice. -/
def TreeManifest.Distinct (manifest : TreeManifest) : Prop :=
  (manifest.files.map TreeFileRecord.relativePath).Nodup

/-- What a preparation makes of the file. -/
inductive Prepared (mode : TreeTransferMode) (request : TreeRequest) (disk : Option Bytes) :
    Except Status TreeManifest × Option Bytes → Prop
  | refused (e : Status) : Prepared mode request disk (.error e, disk)
  | marked {text text' message : Bytes} {loaded : TreeManifest} {index now : Nat} (e : Status)
      (hdisk : disk = some text) (hparse : parseTreeManifest text = .ok loaded)
      (hnow : now < 2 ^ 64)
      (htext : serializeTreeManifest (changedManifest loaded text index message now) = .ok text') :
      Prepared mode request disk (.error e, some text')
  | resumed {text : Bytes} {loaded : TreeManifest} (hresume : request.resume = true)
      (hdisk : disk = some text) (hparse : parseTreeManifest text = .ok loaded) :
      Prepared mode request disk (.ok loaded, some text)
  | made {text : Bytes} {manifest : TreeManifest} (hresume : request.resume = false)
      (hbegins : manifest.Begins mode request.sourceDir)
      (htext : serializeTreeManifest manifest = .ok text) :
      Prepared mode request disk (.ok manifest, some text)

/-- Whatever the system answers, one of these has happened. -/
def TreeClient.Lawful (client : TreeClient) : Prop :=
  ∀ request start disk outcome, client.Fits start →
    client.prepare request start disk = some outcome → Prepared client.mode request disk outcome

/-! ### One manifest that goes on with another -/

/-- A manifest of the transfer that `made` was the beginning of, after these paths
have been acknowledged. -/
structure TreeManifest.Continues (made : TreeManifest) (acknowledged : List Bytes)
    (manifest : TreeManifest) : Prop where
  mode : manifest.mode = made.mode
  root : manifest.rootLogicalPath = made.rootLogicalPath
  algorithm : manifest.checksumAlgorithm = made.checksumAlgorithm
  sources : (manifest.files.map TreeFileRecord.sourceKey).Perm
    (made.files.map TreeFileRecord.sourceKey)
  fits : manifest.Fits
  completed : ∀ record ∈ manifest.files, record.status = .completed →
    record.relativePath ∈ acknowledged

theorem TreeFileRecord.Fits.of_key {record other : TreeFileRecord} (h : record.Fits)
    (hkey : other.sourceKey = record.sourceKey) : other.Fits := by
  obtain ⟨-, hrest⟩ := Prod.mk.inj hkey
  obtain ⟨hsize, hmtime⟩ := Prod.mk.inj hrest
  exact ⟨hsize ▸ h.size, hmtime ▸ h.mtimeLow, hmtime ▸ h.mtimeHigh⟩

theorem map_path_of_sources {files files' : List TreeFileRecord}
    (h : files'.map TreeFileRecord.sourceKey = files.map TreeFileRecord.sourceKey) :
    files'.map TreeFileRecord.relativePath = files.map TreeFileRecord.relativePath := by
  have hpaths := congrArg (List.map Prod.fst) h
  rwa [List.map_map, List.map_map] at hpaths

namespace TreeManifest.Continues

variable {made manifest : TreeManifest} {acknowledged : List Bytes}

theorem mono (h : Continues made acknowledged manifest) {acknowledged' : List Bytes}
    (hsub : ∀ path ∈ acknowledged, path ∈ acknowledged') :
    Continues made acknowledged' manifest :=
  { h with completed := fun record hmem hstatus => hsub _ (h.completed record hmem hstatus) }

/-- The same files with other statuses, at another time. -/
theorem of_sources (h : Continues made acknowledged manifest) {later : TreeManifest}
    (hheader : later = { manifest with
      files := later.files, updatedAtUnixNanos := later.updatedAtUnixNanos })
    (hsources : later.files.map TreeFileRecord.sourceKey =
      manifest.files.map TreeFileRecord.sourceKey)
    (hnow : later.updatedAtUnixNanos < 2 ^ 64) {acknowledged' : List Bytes}
    (hcompleted : ∀ record ∈ later.files, record.status = .completed →
      record.relativePath ∈ acknowledged') :
    Continues made acknowledged' later where
  mode := by
    rw [hheader]
    exact h.mode
  root := by
    rw [hheader]
    exact h.root
  algorithm := by
    rw [hheader]
    exact h.algorithm
  sources := by
    rw [hsources]
    exact h.sources
  fits := by
    refine ⟨?_, hnow, fun file hfile => ?_⟩
    · rw [hheader]
      exact h.fits.createdAt
    · have hkey : file.sourceKey ∈ manifest.files.map TreeFileRecord.sourceKey :=
        hsources ▸ List.mem_map_of_mem hfile
      obtain ⟨old, hold, hsame⟩ := List.mem_map.mp hkey
      exact (h.fits.files old hold).of_key hsame.symm
  completed := hcompleted

/-- A new manifest goes on with nothing but itself. -/
theorem of_begins {mode : TreeTransferMode} {sourceDir : Bytes} (h : made.Begins mode sourceDir) :
    Continues made [] made where
  mode := rfl
  root := rfl
  algorithm := rfl
  sources := .refl _
  fits := h.fits
  completed record hmem hstatus := by
    rw [h.pending record hmem] at hstatus
    cases hstatus

/-- A marked record is not completed. -/
theorem changed (h : Continues made acknowledged manifest) (text : Bytes) (index : Nat)
    (message : Bytes) {now : Nat} (hnow : now < 2 ^ 64) :
    Continues made acknowledged (changedManifest manifest text index message now) := by
  have hsources : (changedManifest manifest text index message now).files.map
      TreeFileRecord.sourceKey = manifest.files.map TreeFileRecord.sourceKey := by
    show (manifest.files.modify index fun record =>
      { record with status := .changed, error := message }).map _ = _
    apply map_modify_of_eq
    intro record
    rfl
  refine h.of_sources rfl hsources hnow fun record hmem hstatus => ?_
  obtain ⟨i, hi⟩ := List.mem_iff_getElem?.mp hmem
  change (manifest.files.modify index _)[i]? = _ at hi
  rw [List.getElem?_modify] at hi
  rcases hold : manifest.files[i]? with - | old
  · rw [hold] at hi
    cases hi
  · rw [hold] at hi
    change some (if index = i then _ else old) = _ at hi
    split_ifs at hi
    · cases hi
      cases hstatus
    · cases hi
      exact h.completed _ (List.mem_of_getElem? hold) hstatus

theorem distinct (h : Continues made acknowledged manifest) (hmade : made.Distinct) :
    manifest.Distinct := by
  have hpaths := h.sources.map Prod.fst
  rw [List.map_map, List.map_map] at hpaths
  exact hpaths.nodup_iff.mpr hmade

/-- What the file reads as after a save. -/
theorem reads (h : Continues made acknowledged manifest) (hmade : made.Distinct) {text : Bytes}
    (htext : serializeTreeManifest manifest = .ok text) :
    ∃ saved, parseTreeManifest text = .ok saved ∧
      Continues made acknowledged saved ∧ saved.files.Perm manifest.files := by
  have hparse := parseTreeManifest_serialized h.fits htext
  rw [if_pos (show (manifest.files.map TreeFileRecord.relativePath).Nodup from h.distinct hmade)]
    at hparse
  have hperm := sortedFiles_perm manifest.files
  refine ⟨_, hparse, ⟨h.mode, h.root, h.algorithm, (hperm.map _).trans h.sources,
    ⟨h.fits.createdAt, h.fits.updatedAt, fun file hfile =>
      h.fits.files file (hperm.mem_iff.mp hfile)⟩, fun record hmem =>
      h.completed record (hperm.mem_iff.mp hmem)⟩, hperm⟩

/-- A run goes on with the manifest it began with. -/
theorem follows (h : Continues made acknowledged manifest) {indices : List Nat}
    {later : TreeManifest} (hfollows : manifest.Follows indices later)
    (hnow : later.updatedAtUnixNanos < 2 ^ 64) :
    Continues made
      (indices.filterMap (fun i => manifest.files[i]?.map TreeFileRecord.relativePath) ++
        acknowledged) later := by
  refine h.of_sources hfollows.header hfollows.sources hnow fun record hmem hstatus => ?_
  obtain ⟨i, hi⟩ := List.mem_iff_getElem?.mp hmem
  rw [List.mem_append]
  rcases hfollows.completed i record hi hstatus with hindex | hbegun
  · left
    rw [List.mem_filterMap]
    have hpath : manifest.files[i]?.map TreeFileRecord.relativePath =
        some record.relativePath := by
      rw [← List.getElem?_map, ← map_path_of_sources hfollows.sources, List.getElem?_map, hi]
      rfl
    exact ⟨i, hindex, hpath⟩
  · exact .inr (h.completed record (List.mem_of_getElem? hbegun) hstatus)

end TreeManifest.Continues

/-! ### The invariant -/

namespace TreeLife

open TreeManifest

variable {client : TreeClient} {sourceDir : Bytes} {life life' : TreeLife}

/-- The file reads as a manifest that goes on with the one that was made, and
has the records of the workers as long as their saves succeed. -/
structure Saved (life : TreeLife) (made saved : TreeManifest) : Prop where
  reads : ∃ text, life.disk = some text ∧ parseTreeManifest text = .ok saved
  continues : Continues made life.acknowledged saved
  current : ∀ run, life.run = some run → run.scheduler.shared.saveFailed = false →
    saved.files.Perm run.scheduler.shared.manifest.files

structure Ok (mode : TreeTransferMode) (sourceDir : Bytes) (life : TreeLife) : Prop where
  made : ∀ made, life.made = some made → made.Begins mode sourceDir
  saved : ∀ made, life.made = some made → made.Distinct → ∃ saved, Saved life made saved
  reachable : ∀ run, life.run = some run →
    (observedScheduler run.request.toTreeTransferOptions mode run.begun).Reachable
      (run.scheduler, run.acknowledged)
  disk : ∀ run, life.run = some run → life.disk = some run.scheduler.shared.disk
  begun : ∀ run made, life.run = some run → life.made = some made → made.Distinct →
    Continues made life.earlier run.begun

variable {mode : TreeTransferMode}

/-- What has been acknowledged in a run comes on top. -/
theorem acknowledged_of_run {run : TreeRun} (hrun : life.run = some run) :
    life.acknowledged = run.paths ++ life.earlier := by
  rw [acknowledged, hrun]

theorem Ok.leave (h : life.Ok mode sourceDir) :
    Ok mode sourceDir { life with run := none, earlier := life.acknowledged } where
  made := h.made
  saved made hmade hdistinct := by
    obtain ⟨saved, hreads, hcontinues, -⟩ := h.saved made hmade hdistinct
    exact ⟨saved, hreads, hcontinues, fun run hrun => (by cases hrun)⟩
  reachable run hrun := (by cases hrun)
  disk run hrun := (by cases hrun)
  begun run made hrun := (by cases hrun)

/-- A start that ends before the workers begin: the file is as it was or has one
record marked. -/
theorem Ok.refused (h : life.Ok mode sourceDir) (hidle : life.run = none) {request : TreeRequest}
    {e : Status} {disk : Option Bytes}
    (hprepared : Prepared mode request life.disk (.error e, disk)) :
    Ok mode sourceDir { life with disk := disk } where
  made := h.made
  saved made hmade hdistinct := by
    obtain ⟨saved, ⟨text, hdisk, hparse⟩, hcontinues, -⟩ := h.saved made hmade hdistinct
    have hidle' : ∀ run, life.run = some run → False := fun run hrun => by
      rw [hidle] at hrun
      cases hrun
    cases hprepared with
    | refused =>
        exact ⟨saved, ⟨text, hdisk, hparse⟩, hcontinues, fun run hrun => (hidle' run hrun).elim⟩
    | marked _ hdisk' hparse' hnow htext =>
        -- the file that was loaded is the one at hand
        rw [hdisk] at hdisk'
        cases hdisk'
        rw [hparse] at hparse'
        cases hparse'
        obtain ⟨saved', hreads, hcontinues', -⟩ :=
          (hcontinues.changed text _ _ hnow).reads hdistinct htext
        exact ⟨saved', ⟨_, rfl, hreads⟩, hcontinues', fun run hrun => (hidle' run hrun).elim⟩
  reachable run hrun := h.reachable run hrun
  disk run hrun := by
    rw [hidle] at hrun
    cases hrun
  begun run made hrun := h.begun run made hrun

/-- The scheduler begins with the manifest on the disk. -/
theorem observed_start {options : TreeTransferOptions} {manifest : TreeManifest} {text : Bytes}
    (hdisk : TreeOnDisk text manifest.files) :
    (observedScheduler options mode manifest).Reachable
      (⟨{ manifest := manifest, disk := text }, fun _ => .looking⟩, []) :=
  .initial ⟨⟨text, hdisk, rfl⟩, rfl⟩

theorem Ok.resumed (h : life.Ok mode sourceDir) (hidle : life.run = none) {request : TreeRequest}
    {text : Bytes} {loaded : TreeManifest} (hdisk : life.disk = some text)
    (hparse : parseTreeManifest text = .ok loaded) :
    Ok mode sourceDir { life with
      disk := some text
      run := some ⟨request, loaded,
        ⟨{ manifest := loaded, disk := text }, fun _ => .looking⟩, []⟩ } := by
  have hearlier : life.acknowledged = life.earlier := by
    rw [acknowledged, hidle]
  have hcontinues : ∀ made, life.made = some made → made.Distinct →
      Continues made life.earlier loaded := by
    intro made hmade hdistinct
    obtain ⟨saved, ⟨text', hdisk', hparse'⟩, hcontinues, -⟩ := h.saved made hmade hdistinct
    rw [hdisk] at hdisk'
    cases hdisk'
    rw [hparse] at hparse'
    cases hparse'
    rwa [hearlier] at hcontinues
  refine ⟨h.made, fun made hmade hdistinct => ⟨loaded, ⟨text, rfl, hparse⟩,
    hcontinues made hmade hdistinct, fun run hrun _ => ?_⟩, fun run hrun => ?_,
    fun run hrun => ?_, fun run made hrun hmade hdistinct => ?_⟩
  · cases hrun
    exact List.Perm.refl _
  · cases hrun
    exact observed_start ⟨loaded, rfl, .inr hparse⟩
  · cases hrun
    rfl
  · cases hrun
    exact hcontinues made hmade hdistinct

theorem ok_of_made {request : TreeRequest} {manifest : TreeManifest} {text : Bytes}
    (hbegins : manifest.Begins mode sourceDir) (htext : serializeTreeManifest manifest = .ok text) :
    Ok mode sourceDir
      { disk := some text
        run := some ⟨request, manifest,
          ⟨{ manifest := manifest, disk := text }, fun _ => .looking⟩, []⟩
        made := some manifest } := by
  have hcontinues := Continues.of_begins hbegins
  refine ⟨fun made hmade => ?_, fun made hmade hdistinct => ?_, fun run hrun => ?_,
    fun run hrun => ?_, fun run made hrun hmade _ => ?_⟩
  · cases hmade
    exact hbegins
  · cases hmade
    obtain ⟨saved, hreads, hsaved, hperm⟩ := hcontinues.reads hdistinct htext
    refine ⟨saved, ⟨text, rfl, hreads⟩, hsaved, fun run hrun _ => ?_⟩
    cases hrun
    exact hperm
  · cases hrun
    exact observed_start ⟨_, rfl, .inl htext⟩
  · cases hrun
    rfl
  · cases hrun
    cases hmade
    exact hcontinues

theorem Ok.start (h : life.Ok mode sourceDir) (hidle : life.run = none) {request : TreeRequest}
    (hsource : request.sourceDir = sourceDir) {outcome : Except Status TreeManifest × Option Bytes}
    (hprepared : Prepared mode request life.disk outcome) :
    Ok mode sourceDir (life.began request outcome) := by
  rcases outcome with ⟨e | begun, disk⟩
  · exact h.refused hidle hprepared
  rw [began]
  cases hprepared with
  | resumed hresume hdisk hparse =>
      rw [if_pos hresume, if_pos hresume]
      exact h.resumed hidle hdisk hparse
  | made hnew hbegins htext =>
      have hresume : ¬request.resume = true := by
        rw [hnew]
        exact Bool.false_ne_true
      rw [if_neg hresume, if_neg hresume]
      subst hsource
      exact ok_of_made hbegins htext

/-- A step of a worker. -/
theorem Ok.worker (h : life.Ok mode sourceDir) {run : TreeRun} (hrun : life.run = some run)
    {w : Fin (workerCount run.request.toTreeTransferOptions run.begun.files.length)}
    {shared : SchedulerState} {worker : Worker} {acknowledged : List Nat}
    (hstep : ObservedStep run.request.maxFiles
      (processFile mode run.request.toTreeTransferOptions) w run.scheduler.shared
      (run.scheduler.workers w) run.acknowledged shared worker acknowledged)
    (hnow : shared.manifest.updatedAtUnixNanos < 2 ^ 64) :
    Ok mode sourceDir { life with
      disk := some shared.disk
      run := some { run with
        scheduler := ⟨shared, Function.update run.scheduler.workers w worker⟩
        acknowledged := acknowledged } } := by
  have hreach := h.reachable run hrun
  have hreach' : (observedScheduler run.request.toTreeTransferOptions mode run.begun).Reachable
      (⟨shared, Function.update run.scheduler.workers w worker⟩, acknowledged) :=
    hreach.step (l := w) ⟨shared, worker, acknowledged, hstep, rfl⟩
  refine ⟨h.made, fun made hmade hdistinct => ?_, fun other hother => ?_, fun other hother => ?_,
    fun other made hother hmade hdistinct => ?_⟩
  · rcases (TreeScheduler.inOrder_of_observed hreach).disk rfl hstep with htext | ⟨hsame, hsaved⟩
    · -- the file holds the records of the workers
      have hfollows := (TreeScheduler.inOrder_of_observed hreach').follows
      obtain ⟨saved, hreads, hcontinues, hperm⟩ :=
        ((h.begun run made hrun hmade hdistinct).follows hfollows hnow).reads hdistinct htext
      refine ⟨saved, ⟨_, rfl, hreads⟩, hcontinues, fun other hother _ => ?_⟩
      cases hother
      exact hperm
    · obtain ⟨saved, ⟨text, hdisk, hparse⟩, hcontinues, hcurrent⟩ := h.saved made hmade hdistinct
      rw [h.disk run hrun] at hdisk
      cases hdisk
      rw [acknowledged_of_run hrun] at hcontinues
      refine ⟨saved, ⟨_, rfl, hsame ▸ hparse⟩, hcontinues.mono fun path hpath => ?_,
        fun other hother hnone => ?_⟩
      · rcases List.mem_append.mp hpath with hpath | hpath
        · obtain ⟨i, hi, hpath⟩ := List.mem_filterMap.mp hpath
          exact List.mem_append_left _ (List.mem_filterMap.mpr ⟨i, hstep.subset i hi, hpath⟩)
        · exact List.mem_append_right _ hpath
      · cases hother
        obtain ⟨hbefore, hmanifest⟩ := hsaved hnone
        show saved.files.Perm shared.manifest.files
        rw [hmanifest]
        exact hcurrent run hrun hbefore
  · cases hother
    exact hreach'
  · cases hother
    rfl
  · cases hother
    exact h.begun run made hrun hmade hdistinct

/-- **The invariant** of every life of a tree transfer. -/
theorem ok_of_reachable (hlawful : client.Lawful)
    (h : (treeTransfer client sourceDir).Reachable life) : life.Ok client.mode sourceDir := by
  refine System.Reachable.invariant (I := fun life => life.Ok client.mode sourceDir) ?_ ?_ h
  · rintro life ⟨hidle, hmade, -⟩
    refine ⟨fun made hsome => ?_, fun made hsome => ?_, fun run hrun => ?_, fun run hrun => ?_,
      fun run _ hrun => ?_⟩
    · rw [hmade] at hsome
      cases hsome
    · rw [hmade] at hsome
      cases hsome
    · rw [hidle] at hrun
      cases hrun
    · rw [hidle] at hrun
      cases hrun
    · rw [hidle] at hrun
      cases hrun
  · rintro (⟨request, start⟩ | - | -) life life' - hok hstep
    · obtain ⟨outcome, hidle, hsource, hfits, hprepare, rfl⟩ := hstep
      exact hok.start hidle hsource (hlawful request start life.disk outcome hfits hprepare)
    · obtain ⟨run, w, shared, worker, acknowledged, hrun, hstep, hnow, rfl⟩ := hstep
      exact hok.worker hrun hstep hnow
    · obtain rfl := hstep
      exact hok.leave

/-- A client that ends without an error leaves a complete manifest. -/
theorem Ok.complete (h : life.Ok mode sourceDir) {run : TreeRun} (hrun : life.run = some run)
    {made saved : TreeManifest} (hsaved : Saved life made saved)
    (hjoined : run.scheduler.Joined) (hresult : run.scheduler.shared.result = .ok ()) :
    isTreeTransferComplete saved = true := by
  have hreach := h.reachable run hrun
  have horder := TreeScheduler.inOrder_of_observed hreach
  have hok := TreeScheduler.ok_of_reachable (reachable_of_observed hreach)
  have hcomplete := hok.complete
    (hok.processed_of_result (TreeScheduler.workerCount_pos _ _) hjoined hresult)
  have hsaves : run.scheduler.shared.saveFailed = false := by
    by_contra hfailed
    obtain ⟨e, he⟩ := horder.saveFailed (Bool.eq_true_of_not_eq_false hfailed)
    rw [SchedulerState.result, he] at hresult
    split at hresult
    · cases hresult
    · cases hresult
  rw [isTreeTransferComplete, List.all_eq_true] at hcomplete ⊢
  intro record hmem
  exact hcomplete record ((hsaved.current run hrun hsaves).mem_iff.mp hmem)

/-- What the file says in every life. -/
structure Survives (life : TreeLife) (made saved : TreeManifest) : Prop where
  mode : saved.mode = made.mode
  root : saved.rootLogicalPath = made.rootLogicalPath
  algorithm : saved.checksumAlgorithm = made.checksumAlgorithm
  sources : (saved.files.map TreeFileRecord.sourceKey).Perm
    (made.files.map TreeFileRecord.sourceKey)
  completed : ∀ record ∈ saved.files, record.status = .completed →
    record.relativePath ∈ life.acknowledged
  ended : ∀ run, life.run = some run → run.scheduler.Joined →
    run.scheduler.shared.result = .ok () → isTreeTransferComplete saved = true

theorem Ok.survives (h : life.Ok mode sourceDir) {made saved : TreeManifest}
    (hsaved : Saved life made saved) : Survives life made saved :=
  ⟨hsaved.continues.mode, hsaved.continues.root, hsaved.continues.algorithm,
    hsaved.continues.sources, hsaved.continues.completed,
    fun _ hrun hjoined hresult => h.complete hrun hsaved hjoined hresult⟩

end TreeLife

end GridFlux
