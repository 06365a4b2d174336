/-
GridFlux/TreeDownloads.lean

`runTreeDownloadClient` of `tree_transfer_client.cpp` over its whole life: an
enumeration or the manifest of an earlier run, the preflight, and the workers.

What is enumerated is up to the server.  If it names a file twice, the manifest
cannot be read back; otherwise it survives like that of an upload
(`treeDownload_survives`).
-/
import GridFlux.TreeRuns
import GridFlux.DownloadPreflight

namespace GridFlux

open FileTree Transition TextCodec

/-! ### Before the workers start -/

/-- What the system and the server answer until the workers start; the preflight
has a connection of its own. -/
structure DownloadStart where
  control : Except Status ControlConnection
  server : ControlServerOptions
  env : Circumstances
  fuel : Nat
  random : Nat → Fin 32 → UInt32
  createdAt : Nat
  opened : Except Status Unit
  saving : Saving
  preflightControl : Except Status ControlConnection
  preflightEnv : Circumstances
  statRegularFile : Bytes → Except Status FileMetadata

structure DownloadStart.Fits (start : DownloadStart) : Prop where
  createdAt : start.createdAt < 2 ^ 64
  now : start.saving.now < 2 ^ 64

/-- The manifest of a new download. -/
def newDownloadManifest (request : TreeRequest) (start : DownloadStart)
    (records : List TreeFileRecord) : TreeManifest where
  version := kTreeManifestVersion
  mode := .download
  rootLogicalPath := request.sourceDir
  checksumAlgorithm := request.checksumAlgorithm
  createdAtUnixNanos := start.createdAt
  updatedAtUnixNanos := start.createdAt
  files := records

/-- The first part of `runTreeDownloadClient`: the manifest is loaded, or made and
saved.  The second component is the file; there is no result while the traversal
goes on. -/
def loadOrMakeDownload (request : TreeRequest) (start : DownloadStart) (disk : Option Bytes) :
    Option (Except Status TreeManifest × Option Bytes) :=
  match start.control with
  | .error e => some (.error e, disk)
  | .ok c =>
      if request.resume then
        match loadTreeManifest start.opened disk with
        | .error e => some (.error e, disk)
        | .ok manifest =>
            if manifest.mode ≠ .download ∨ manifest.rootLogicalPath ≠ request.sourceDir ∨
                manifest.checksumAlgorithm ≠ request.checksumAlgorithm then
              some (.error (.invalidArgument
                (ascii "tree download manifest does not match request")), disk)
            else some (.ok manifest, disk)
      else
        match enumerate start.server start.env request.sourceDir start.random start.fuel
            ⟨some c, [request.sourceDir], []⟩ with
        | none => none
        | some (.error e) => some (.error e, disk)
        | some (.ok records) =>
            let made : SchedulerState :=
              { manifest := newDownloadManifest request start records, disk := disk.getD [] }
            match made.saveManifest start.saving with
            | (.error e, _) => some (.error e, disk)
            | (.ok _, saved) => some (.ok saved.manifest, some saved.disk)

/-- `runTreeDownloadClient` up to the scheduler. -/
def prepareTreeDownload (request : TreeRequest) (start : DownloadStart) (disk : Option Bytes) :
    Option (Except Status TreeManifest × Option Bytes) :=
  match loadOrMakeDownload request start disk with
  | none => none
  | some (.error e, disk) => some (.error e, disk)
  | some (.ok manifest, none) => some (.ok manifest, none)
  | some (.ok manifest, some text) =>
      match preflightDownloadResume start.server start.preflightEnv request.toTreeTransferOptions
          start.statRegularFile start.preflightControl start.saving
          { manifest := manifest, disk := text } with
      | (.error e, s) => some (.error e, some s.disk)
      | (.ok _, s) => some (.ok s.manifest, some s.disk)

def downloadClient : TreeClient where
  mode := .download
  Start := DownloadStart
  Fits := DownloadStart.Fits
  prepare := prepareTreeDownload

/-- Downloads of one directory. -/
def treeDownload (sourceDir : Bytes) : System TreeLife (TreeEvent DownloadStart) :=
  treeTransfer downloadClient sourceDir

/-! ### What is enumerated fits a manifest -/

theorem decimalValue_append (text : Bytes) (b : UInt8) :
    decimalValue (text ++ [b]) = 10 * decimalValue text + (b.toNat - 48) := by
  rw [decimalValue, List.foldl_append]
  rfl

theorem decimalValue_lt {text : Bytes} (h : text.all isDigit = true) :
    decimalValue text < 10 ^ text.length := by
  induction text using List.reverseRecOn with
  | nil => exact Nat.one_pos
  | append_singleton text b ih =>
      rw [List.all_append, Bool.and_eq_true, List.all_cons, Bool.and_eq_true] at h
      have hdigit := h.2.1
      rw [isDigit, Bool.and_eq_true, decide_eq_true_eq, decide_eq_true_eq, UInt8.le_iff_toNat_le,
        UInt8.le_iff_toNat_le] at hdigit
      have hbyte : b.toNat ≤ 57 := hdigit.2
      have hprefix := ih h.1
      rw [decimalValue_append, List.length_append, List.length_singleton, Nat.pow_succ]
      omega

/-- What `mdtm` returns is not before 1970 and not long after the year 9999. -/
theorem readTimestamp_bounds {text : Bytes} {mtime : Int}
    (h : ControlClient.readTimestamp text = .ok mtime) : 0 ≤ mtime ∧ mtime < 2 ^ 63 := by
  rw [ControlClient.readTimestamp] at h
  by_cases hdigits : text.all isDigit = false
  · rw [if_pos hdigits] at h
    cases h
  have hfield : ∀ start length, ((text.drop start).take length).all isDigit = true := by
    intro start length
    rw [Bool.not_eq_false, List.all_eq_true] at hdigits
    exact List.all_eq_true.mpr fun b hb =>
      hdigits b (List.mem_of_mem_drop (List.mem_of_mem_take hb))
  have hfour : ∀ start, decimalValue ((text.drop start).take 4) < 10000 := fun start =>
    (decimalValue_lt (hfield start 4)).trans_le
      (Nat.pow_le_pow_right (by decide) (List.length_take_le 4 _))
  have htwo : ∀ start, decimalValue ((text.drop start).take 2) < 100 := fun start =>
    (decimalValue_lt (hfield start 2)).trans_le
      (Nat.pow_le_pow_right (by decide) (List.length_take_le 2 _))
  rw [if_neg hdigits] at h
  dsimp only at h
  split_ifs at h with hneg
  cases h
  refine ⟨Int.not_lt.mp hneg, ?_⟩
  have hyear := hfour 0
  have hmonth := htwo 4
  have hday := htwo 6
  have hhour := htwo 8
  have hminute := htwo 10
  have hsecond := htwo 12
  simp only [timegm, daysFromCivil]
  split_ifs <;> omega

/-- A record as an enumeration makes it. -/
structure TreeFileRecord.New (record : TreeFileRecord) : Prop where
  fits : record.Fits
  pending : record.status = .pending

section Enumerated

variable {server : ControlServerOptions} {env : Circumstances} {sourceDir : Bytes}
  {random : Nat → Fin 32 → UInt32}

theorem size_lt {link link' : Option ControlConnection} {path : Bytes} {size : Nat}
    (h : ControlClient.size server env link path = (.ok size, link')) : size < 2 ^ 64 := by
  obtain ⟨reply, -, hread⟩ := bind_eq_ok.mp (congrArg Prod.fst h)
  rw [ControlClient.readSize] at hread
  split_ifs at hread
  split at hread
  · cases hread
  split at hread
  · cases hread
  rw [ControlClient.stoull] at hread
  split_ifs at hread with hfits
  cases hread
  exact hfits.2

theorem mdtm_bounds {link link' : Option ControlConnection} {path : Bytes} {mtime : Int}
    (h : ControlClient.mdtm server env link path = (.ok mtime, link')) :
    0 ≤ mtime ∧ mtime < 2 ^ 63 := by
  obtain ⟨reply, -, hread⟩ := bind_eq_ok.mp (congrArg Prod.fst h)
  rw [ControlClient.readMdtm] at hread
  split_ifs at hread
  split at hread
  · cases hread
  split at hread
  · cases hread
  split_ifs at hread
  exact readTimestamp_bounds hread

theorem visitName_new {current name : Bytes} {s s' : Enumeration}
    (h : visitName server env sourceDir random current name s = .ok s')
    (hs : ∀ record ∈ s.records, record.New) : ∀ record ∈ s'.records, record.New := by
  rw [visitName] at h
  rcases hsize : ControlClient.size server env s.link (joinRemotePath current name) with
    ⟨e | size, link⟩
  · rw [hsize] at h
    cases h
    exact hs
  rw [hsize] at h
  dsimp only at h
  rcases hrelative : remoteRelativePath sourceDir (joinRemotePath current name) with e | relative
  · rw [hrelative] at h
    cases h
  rw [hrelative] at h
  dsimp only at h
  rcases hmdtm : ControlClient.mdtm server env link (joinRemotePath current name) with
    ⟨e | mtime, link'⟩
  · rw [hmdtm] at h
    cases h
  · rw [hmdtm] at h
    cases h
    obtain ⟨hlow, hhigh⟩ := mdtm_bounds hmdtm
    intro record hmem
    rcases List.mem_append.mp hmem with hmem | hmem
    · exact hs record hmem
    · obtain rfl := List.mem_singleton.mp hmem
      exact ⟨⟨size_lt hsize, (by decide : (-2 ^ 63 : Int) ≤ 0).trans hlow, hhigh⟩, rfl⟩

theorem visitNames_new {current : Bytes} {names : List Bytes} {s s' : Enumeration}
    (h : visitNames server env sourceDir random current names s = .ok s')
    (hs : ∀ record ∈ s.records, record.New) : ∀ record ∈ s'.records, record.New := by
  induction names generalizing s with
  | nil =>
      cases h
      exact hs
  | cons name names ih =>
      rw [visitNames] at h
      rcases hvisit : visitName server env sourceDir random current name s with e | s₁
      · rw [hvisit] at h
        cases h
      · rw [hvisit] at h
        exact ih h (visitName_new hvisit hs)

theorem enumerate_new {fuel : Nat} {s : Enumeration} {records : List TreeFileRecord}
    (h : enumerate server env sourceDir random fuel s = some (.ok records))
    (hs : ∀ record ∈ s.records, record.New) : ∀ record ∈ records, record.New := by
  induction fuel generalizing s with
  | zero =>
      obtain ⟨link, stack, found⟩ := s
      cases stack with
      | nil =>
          rw [enumerate] at h
          cases h
          intro record hmem
          exact hs record ((sortedFiles_perm found).mem_iff.mp hmem)
      | cons current stack => cases h
  | succ fuel ih =>
      obtain ⟨link, stack, found⟩ := s
      cases stack with
      | nil =>
          rw [enumerate] at h
          cases h
          intro record hmem
          exact hs record ((sortedFiles_perm found).mem_iff.mp hmem)
      | cons current stack =>
          rw [enumerate] at h
          rcases hnlst : ControlClient.nlst server env link current with ⟨e | names, link'⟩
          · rw [hnlst] at h
            cases h
          rw [hnlst] at h
          dsimp only at h
          rcases hvisit : visitNames server env sourceDir random current names
            ⟨link', stack, found⟩ with e | s₁
          · rw [hvisit] at h
            cases h
          · rw [hvisit] at h
            exact ih h (visitNames_new hvisit hs)

end Enumerated

/-! ### What the preparation can do -/

theorem preflightDownloadResume_new {server : ControlServerOptions} {env : Circumstances}
    {options : TreeTransferOptions} {statRegularFile : Bytes → Except Status FileMetadata}
    (h : options.resume = false) (control : Except Status ControlConnection) (saving : Saving)
    (s : SchedulerState) :
    preflightDownloadResume server env options statRegularFile control saving s = (.ok (), s) := by
  rcases control with e | c
  · rw [preflightDownloadResume, if_pos h]
  · rw [preflightDownloadResume, if_pos h]

/-- The preflight lets the download go on as it is, or stops it. -/
theorem preflightDownloadResume_cases (server : ControlServerOptions) (env : Circumstances)
    (options : TreeTransferOptions) (statRegularFile : Bytes → Except Status FileMetadata)
    (control : Except Status ControlConnection) (saving : Saving) (manifest : TreeManifest)
    (text : Bytes) :
    preflightDownloadResume server env options statRegularFile control saving
        { manifest := manifest, disk := text } =
        (.ok (), { manifest := manifest, disk := text }) ∨
      ∃ e s, preflightDownloadResume server env options statRegularFile control saving
          { manifest := manifest, disk := text } = (.error e, s) ∧
        (s.disk = text ∨ ∃ index message,
          serializeTreeManifest (changedManifest manifest text index message saving.now) =
            .ok s.disk) := by
  by_cases hresume : options.resume = false
  · exact .inl (preflightDownloadResume_new hresume _ _ _)
  rcases control with e | c
  · rw [preflightDownloadResume, if_neg hresume]
    exact .inr ⟨e, _, rfl, .inl rfl⟩
  rw [preflightDownloadResume, if_neg hresume]
  dsimp only
  rcases firstDownloadChange server env options statRegularFile 0 manifest.files (some c) with
    - | ⟨index, message⟩
  · exact .inl rfl
  · obtain ⟨e, s, hmark, hdisk⟩ := markManifestChanged_cases manifest text index message saving
    exact .inr ⟨e, s, hmark, hdisk.imp_right fun htext => ⟨index, message, htext⟩⟩

theorem downloadClient_lawful : downloadClient.Lawful := by
  intro request (start : DownloadStart) disk outcome hfits hprepare
  change prepareTreeDownload request start disk = some outcome at hprepare
  rw [prepareTreeDownload, loadOrMakeDownload] at hprepare
  rcases hcontrol : start.control with e | c
  · rw [hcontrol] at hprepare
    cases hprepare
    exact .refused e
  rw [hcontrol] at hprepare
  dsimp only at hprepare
  by_cases hresume : request.resume = true
  · rw [if_pos hresume] at hprepare
    rcases hload : loadTreeManifest start.opened disk with e | loaded
    · rw [hload] at hprepare
      cases hprepare
      exact .refused e
    obtain ⟨text, rfl, hparse⟩ := loadTreeManifest_ok hload
    rw [hload] at hprepare
    dsimp only at hprepare
    split_ifs at hprepare
    · cases hprepare
      exact .refused _
    dsimp only at hprepare
    rcases preflightDownloadResume_cases start.server start.preflightEnv
      request.toTreeTransferOptions start.statRegularFile start.preflightControl start.saving loaded
      text with hgo | ⟨e, s, hstop, hdisk | ⟨index, message, htext⟩⟩
    · rw [hgo] at hprepare
      cases hprepare
      exact .resumed hresume rfl hparse
    · rw [hstop] at hprepare
      cases hprepare
      rw [hdisk]
      exact .refused e
    · rw [hstop] at hprepare
      cases hprepare
      exact .marked e rfl hparse hfits.now htext
  · have hnew : request.resume = false := by rwa [Bool.not_eq_true] at hresume
    rw [if_neg hresume] at hprepare
    rcases henumerate : enumerate start.server start.env request.sourceDir start.random start.fuel
      ⟨some c, [request.sourceDir], []⟩ with - | ⟨e | records⟩
    · rw [henumerate] at hprepare
      cases hprepare
    · rw [henumerate] at hprepare
      cases hprepare
      exact .refused e
    rw [henumerate] at hprepare
    dsimp only at hprepare
    rcases SchedulerState.saveManifest_eq
      ({ manifest := newDownloadManifest request start records, disk := disk.getD [] } :
        SchedulerState) start.saving with ⟨e, hsave⟩ | ⟨text, htext, hsave⟩
    · rw [hsave] at hprepare
      cases hprepare
      exact .refused e
    · rw [hsave] at hprepare
      dsimp only at hprepare
      rw [preflightDownloadResume_new hnew] at hprepare
      cases hprepare
      have hrecords := enumerate_new henumerate fun _ hmem => (by cases hmem)
      exact .made hnew ⟨rfl, rfl, ⟨hfits.createdAt, hfits.now, fun record hmem =>
        (hrecords record hmem).fits⟩, fun record hmem => (hrecords record hmem).pending⟩ htext

/-! ### Resuming -/

/-- A host that still has the files of a manifest, as the client asks for them. -/
structure StillServes (sourceDir : Bytes) (made : TreeManifest) (start : DownloadStart)
    (host : RemoteHost) (source : List Name) : Prop where
  server : start.server = host.options
  env : start.preflightEnv = host.env
  connected : ∃ c : ControlConnection, start.preflightControl = .ok c ∧ c.Ready
  exactly : host.Exact
  times : host.SpellsTimes
  spells : Spells sourceDir source
  askable : ∀ record ∈ made.files, Askable sourceDir record
  serves : ∀ record ∈ made.files, host.Serves source record

/-- A record with the path, size and time of one that is served. -/
theorem serves_of_sources {sourceDir : Bytes} {host : RemoteHost} {source : List Name}
    {made saved : TreeManifest}
    (hsources : (saved.files.map TreeFileRecord.sourceKey).Perm
      (made.files.map TreeFileRecord.sourceKey))
    (hmade : ∀ record ∈ made.files, Askable sourceDir record ∧ host.Serves source record) :
    ∀ record ∈ saved.files, Askable sourceDir record ∧ host.Serves source record := by
  intro record hmem
  obtain ⟨old, hold, hkey⟩ :=
    List.mem_map.mp (hsources.mem_iff.mp (List.mem_map_of_mem hmem))
  obtain ⟨haskable, hserves⟩ := hmade old hold
  obtain ⟨hpath, hrest⟩ := Prod.mk.inj hkey
  obtain ⟨hsize, hmtime⟩ := Prod.mk.inj hrest
  rw [Askable, RemoteHost.Serves, ← hpath, ← hsize, ← hmtime]
  exact ⟨haskable, hserves⟩

theorem TreeLife.Saved.resumes_download {life : TreeLife} {sourceDir : Bytes}
    {made saved : TreeManifest} (h : Saved life made saved)
    (hbegins : made.Begins .download sourceDir) {request : TreeRequest} {start : DownloadStart}
    {host : RemoteHost} {source : List Name}
    (hsource : request.sourceDir = sourceDir) (hresume : request.resume = true)
    (halgorithm : request.checksumAlgorithm = made.checksumAlgorithm)
    (hcontrol : ∃ c, start.control = .ok c) (hopened : start.opened = .ok ())
    (hhost : StillServes sourceDir made start host source)
    (hkept : ∀ record ∈ saved.files, KeptLocally start.statRegularFile request.destDir record) :
    prepareTreeDownload request start life.disk = some (.ok saved, life.disk) := by
  obtain ⟨⟨text, hdisk, hparse⟩, hcontinues, -⟩ := h
  obtain ⟨c, hcontrol⟩ := hcontrol
  obtain ⟨c', hconnected, hready⟩ := hhost.connected
  have hmatch : ¬(saved.mode ≠ .download ∨ saved.rootLogicalPath ≠ request.sourceDir ∨
      saved.checksumAlgorithm ≠ request.checksumAlgorithm) := by
    rw [hcontinues.mode, hcontinues.root, hcontinues.algorithm, hbegins.mode, hbegins.root,
      hsource, halgorithm]
    rintro (hne | hne | hne)
    · exact hne rfl
    · exact hne rfl
    · exact hne rfl
  have hsaved := serves_of_sources hcontinues.sources fun record hmem =>
    ⟨hhost.askable record hmem, hhost.serves record hmem⟩
  have hspells := hhost.spells
  rw [← hsource] at hspells hsaved
  have hfound := @firstDownloadChange_spec host request.toTreeTransferOptions source
    start.statRegularFile hhost.exactly hhost.times hspells 0 saved.files
    (fun record hmem => (hsaved record hmem).1) c' hready
  have hresumed : ¬request.resume = false := by
    rw [hresume]
    exact Bool.noConfusion
  rw [prepareTreeDownload, loadOrMakeDownload, hcontrol]
  dsimp only
  rw [if_pos hresume, hopened, hdisk, loadTreeManifest, hparse]
  dsimp only
  rw [if_neg hmatch]
  dsimp only
  rw [hconnected, hhost.server, hhost.env, preflightDownloadResume, if_neg hresumed]
  dsimp only
  generalize firstDownloadChange host.options host.env request.toTreeTransferOptions
    start.statRegularFile 0 saved.files (some c') = found at hfound
  cases hfound with
  | none => rfl
  | @found before after record message hrecords _ hbad =>
      have hmem : record ∈ saved.files :=
        hrecords ▸ List.mem_append_right before List.mem_cons_self
      exact absurd ⟨(hsaved record hmem).2, hkept record hmem⟩ hbad

/-- **A tree download survives its clients.**  Once a new download has saved a
manifest that names no file twice, then after any runs of the client, new or
resumed, killed at any moment, with any saves failing and whatever the server
answers: the file reads as a manifest of this download with exactly the files
that were enumerated at the beginning; of these only such are completed whose
transfer the server has acknowledged since; it is complete when a client has ended
without an error; and while a host still has these files and the local files of
the completed ones are as recorded, the download can be resumed, with what the
file says. -/
theorem treeDownload_survives {sourceDir : Bytes} {life : TreeLife}
    (h : (treeDownload sourceDir).Reachable life) {made : TreeManifest}
    (hmade : life.made = some made) (hdistinct : made.Distinct) :
    made.Begins .download sourceDir ∧
    ∃ text saved, life.disk = some text ∧ parseTreeManifest text = .ok saved ∧
      life.Survives made saved ∧
      ∀ (request : TreeRequest) (start : DownloadStart) (host : RemoteHost) (source : List Name),
        request.sourceDir = sourceDir → request.resume = true →
        request.checksumAlgorithm = made.checksumAlgorithm → (∃ c, start.control = .ok c) →
        start.opened = .ok () → StillServes sourceDir made start host source →
        (∀ record ∈ saved.files, KeptLocally start.statRegularFile request.destDir record) →
        prepareTreeDownload request start life.disk = some (.ok saved, life.disk) := by
  have hok := TreeLife.ok_of_reachable downloadClient_lawful h
  obtain ⟨saved, hsaved⟩ := hok.saved made hmade hdistinct
  obtain ⟨text, hdisk, hparse⟩ := hsaved.reads
  exact ⟨hok.made made hmade, text, saved, hdisk, hparse, hok.survives hsaved,
    fun _ _ _ _ hsource hresume halgorithm hcontrol hopened hhost hkept =>
      hsaved.resumes_download (hok.made made hmade) hsource hresume halgorithm hcontrol hopened
        hhost hkept⟩

/-! ### A client that is killed at once -/

def fileBRequest : TreeRequest where
  sourceDir := ascii "a"
  destDir := ascii "d"
  checksumAlgorithm := .crc32c

/-- The host has one file beneath the directory, the client none. -/
def fileBStart : DownloadStart where
  control := .ok preparedConnection
  server := twoLevelsHost.options
  env := twoLevelsHost.env
  fuel := 2
  random _ _ := 0
  createdAt := 11
  opened := .ok ()
  saving := ⟨12, .ok ()⟩
  preflightControl := .ok preparedConnection
  preflightEnv := twoLevelsHost.env
  statRegularFile _ := .error DirTree.noEntryStatus

def fileBOutcome : Except Status TreeManifest × Option Bytes :=
  (prepareTreeDownload fileBRequest fileBStart none).getD (.error DirTree.noEntryStatus, none)

def killedDownload : TreeLife :=
  let life := TreeLife.began ⟨none, none, none, []⟩ fileBRequest fileBOutcome
  { life with run := none, earlier := life.acknowledged }

theorem killedDownload_reachable : (treeDownload (ascii "a")).Reachable killedDownload := by
  have hempty : (treeDownload (ascii "a")).Reachable ⟨none, none, none, []⟩ :=
    .initial ⟨rfl, rfl, rfl⟩
  have hsome : (prepareTreeDownload fileBRequest fileBStart none).isSome = true := by
    decide +kernel
  obtain ⟨outcome, houtcome⟩ := Option.isSome_iff_exists.mp hsome
  have hprepare : prepareTreeDownload fileBRequest fileBStart none = some fileBOutcome := by
    rw [fileBOutcome, houtcome]
    rfl
  have hstarted : (treeDownload (ascii "a")).step (.start fileBRequest fileBStart)
      ⟨none, none, none, []⟩
      (TreeLife.began ⟨none, none, none, []⟩ fileBRequest fileBOutcome) :=
    ⟨_, rfl, rfl, ⟨by decide, by decide⟩, hprepare, rfl⟩
  have hleft : (treeDownload (ascii "a")).step .leave
      (TreeLife.began ⟨none, none, none, []⟩ fileBRequest fileBOutcome) killedDownload := rfl
  exact (hempty.step hstarted).step hleft

def fileBManifest : TreeManifest where
  version := 1
  mode := .download
  rootLogicalPath := ascii "a"
  checksumAlgorithm := .crc32c
  createdAtUnixNanos := 11
  updatedAtUnixNanos := 12
  files := [⟨ascii "b", 3, 86400, generateTransferId fun _ => 0, .pending, []⟩]

/-- What is left can be resumed at the same host. -/
theorem treeDownload_survives_killed :
    ∃ saved, (saved.files.map TreeFileRecord.sourceKey).Perm [(ascii "b", 3, 86400)] ∧
      prepareTreeDownload { fileBRequest with resume := true } fileBStart killedDownload.disk =
        some (.ok saved, killedDownload.disk) := by
  have hmade : killedDownload.made = some fileBManifest := by decide +kernel
  have hserves : StillServes (ascii "a") fileBManifest fileBStart twoLevelsHost [nameA] := by
    refine ⟨rfl, rfl, ⟨_, rfl, preparedConnection_ready⟩, twoLevelsHost_exact,
      fun loc size mtime h => ?_, spells_nameA, fun record hmem => ?_, fun record hmem => ?_⟩
    · rw [(twoLevels_file h).2]
      decide
    · obtain rfl := List.mem_singleton.mp hmem
      exact ⟨[nameB], rfl, by decide, by decide +kernel, by decide +kernel⟩
    · obtain rfl := List.mem_singleton.mp hmem
      exact ⟨by decide, [nameB], rfl, rfl⟩
  obtain ⟨-, text, saved, -, -, hsurvives, hresumes⟩ :=
    treeDownload_survives killedDownload_reachable hmade (List.nodup_singleton _)
  refine ⟨saved, hsurvives.sources, ?_⟩
  refine hresumes { fileBRequest with resume := true } fileBStart twoLevelsHost [nameA] rfl rfl rfl
    ⟨_, rfl⟩ rfl hserves fun record hmem hcompleted => ?_
  -- nothing has been acknowledged
  have hnone := hsurvives.completed record hmem hcompleted
  rw [show killedDownload.acknowledged = [] by decide +kernel] at hnone
  cases hnone

end GridFlux
