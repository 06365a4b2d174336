/-
GridFlux/DownloadPreflight.lean

`preflightDownloadResume` of `tree_transfer_client.cpp`: before a download is
resumed, the client asks the server for size and time of every record, and looks
at the local file of every completed one.

Against a host whose root holds a tree and nothing else, the answers are those of
the tree: the preflight passes exactly if every file is still there as it was
recorded (`preflightDownloadResume_exact`), and otherwise marks the first record
for which this is not so.
-/
import GridFlux.MdtmTime
import GridFlux.TreeEnumeration
import GridFlux.UploadPreflight

namespace GridFlux

open FileTree TextCodec

/-! ### The client -/

section Client

variable (server : ControlServerOptions) (env : Circumstances) (options : TreeTransferOptions)
  (statRegularFile : Bytes → Except Status FileMetadata)

/-- What is wrong with the local file of a completed record. -/
def completedFileChange (record : TreeFileRecord) : Option Bytes :=
  if record.status ≠ .completed then none
  else
    match statRegularFile (appendPath options.destDir record.relativePath) with
    | .error e => some (changedMissingMessage (ascii "completed download file changed") record
        e.message)
    | .ok metadata =>
        if metadataMatches record metadata = false then
          some (changedMessage (ascii "completed download file changed") record metadata)
        else none

/-- A round of the loop: what is wrong with a record, and the connection after
the questions about it. -/
def downloadRecordChange (record : TreeFileRecord) (link : Option ControlConnection) :
    Option Bytes × Option ControlConnection :=
  let remotePath := joinRemotePath options.sourceDir record.relativePath
  match ControlClient.size server env link remotePath with
  | (.error e, link) =>
      (some (changedMissingMessage (ascii "remote file changed") record e.message), link)
  | (.ok remoteSize, link) =>
      match ControlClient.mdtm server env link remotePath with
      | (.error e, link) =>
          (some (changedMissingMessage (ascii "remote file changed") record e.message), link)
      | (.ok remoteMtime, link) =>
          let remoteMetadata : FileMetadata := ⟨remoteSize, remoteMtime⟩
          if metadataMatches record remoteMetadata = false then
            (some (changedMessage (ascii "remote file changed") record remoteMetadata), link)
          else (completedFileChange options statRegularFile record, link)

/-- The loop over the records, from this index on. -/
def firstDownloadChange :
    Nat → List TreeFileRecord → Option ControlConnection → Option (Nat × Bytes)
  | _, [], _ => none
  | index, record :: records, link =>
      match downloadRecordChange server env options statRegularFile record link with
      | (some message, _) => some (index, message)
      | (none, link) => firstDownloadChange (index + 1) records link

/-- `preflightDownloadResume`; `control` is what `ensureControlReady` comes to. -/
def preflightDownloadResume (control : Except Status ControlConnection) (saving : Saving)
    (s : SchedulerState) : Except Status Unit × SchedulerState :=
  if options.resume = false then (.ok (), s)
  else
    match control with
    | .error e => (.error e, s)
    | .ok c =>
        match firstDownloadChange server env options statRegularFile 0 s.manifest.files
            (some c) with
        | some (index, message) => markManifestChanged s index message saving
        | none => (.ok (), s)

end Client

/-! ### What is not there -/

theorem Spells.virtual_ne_root {path : Bytes} {loc : List Name} (h : Spells path loc) :
    (47 :: FsPath.text ⟨false, loc.map PathPart.name⟩ : Bytes) ≠ ascii "/" := by
  intro heq
  have hparts := congrArg (fun text => (FsPath.parse (text.drop 1)).parts) heq
  rw [List.drop_one, List.tail_cons, FsPath.parse_text] at hparts
  exact h.ne (List.map_eq_nil_iff.mp hparts)

/-- The candidate for a virtual path that spells a location. -/
theorem candidatePath_spelled (base loc : List Name) :
    candidatePath (.ofLocation base) (47 :: FsPath.text ⟨false, loc.map .name⟩) =
      .ofLocation (base ++ loc) := by
  rw [candidatePath, List.drop_one, List.tail_cons, FsPath.parse_text, FsPath.append,
    FsPath.ofLocation, FsPath.ofLocation, List.map_append]
  rfl

namespace RemoteHost

variable (host : RemoteHost)

/-- Beneath the root there is nothing but the tree. -/
def Exact : Prop :=
  ∀ loc, host.tree.find loc = none → host.env.tree.entry (host.base ++ loc) = none

variable {host}

/-- A walk to what the tree does not have ends with an error. -/
theorem walk_missing (hexact : host.Exact) (links : Nat) {above loc : List Name} {t : DirTree}
    (habove : host.tree.find above = some t) (hmissing : host.tree.find (above ++ loc) = none) :
    ∃ e, host.env.tree.walk links (host.base ++ above) (loc.map .name) = .error e := by
  induction loc generalizing above t with
  | nil =>
      rw [List.append_nil, habove] at hmissing
      cases hmissing
  | cons n rest ih =>
      have henter := host.mayEnter (host.base ++ above)
      rw [List.map_cons]
      rcases hchild : host.tree.find (above ++ [n]) with - | child
      · have hentry := hexact _ hchild
        rw [← List.append_assoc] at hentry
        exact ⟨_, FsTree.walk_none henter hentry⟩
      · have hentry := host.entry _ _ hchild
        rw [← List.append_assoc] at hentry
        have hbeyond : host.tree.find ((above ++ [n]) ++ rest) = none := by
          rwa [List.append_assoc]
        cases child with
        | file size mtime =>
            have hrest : rest ≠ [] := by
              rintro rfl
              rw [List.append_nil, hchild] at hbeyond
              cases hbeyond
            rw [FsTree.walk_file henter hentry, if_neg fun h => hrest (List.map_eq_nil_iff.mp h)]
            exact ⟨_, rfl⟩
        | directory entries =>
            rw [FsTree.walk_directory henter hentry, List.append_assoc]
            exact ih hchild hbeyond

variable {loc : List Name} {path : Bytes}

theorem pathExists_missing (hexact : host.Exact) (hmissing : host.tree.find loc = none)
    (cwd : List Name) :
    host.env.tree.pathExists cwd (.ofLocation (host.base ++ loc)) = false := by
  have hroot := DirTree.find_nil host.tree
  have hbase : host.env.tree.Found host.base := by
    have hfound := host.found hroot
    rwa [List.append_nil] at hfound
  have hdirectory : host.env.tree.entry host.base = some .directory := by
    obtain ⟨entries, htree⟩ := host.directory
    have hentry := host.entry [] _ hroot
    rwa [List.append_nil, htree] at hentry
  obtain ⟨left, hleft⟩ := FsTree.walk_append linkLimit [] _ (hbase.walk linkLimit) hdirectory
  obtain ⟨e, hwalk⟩ := walk_missing hexact left hroot
    (show host.tree.find ([] ++ loc) = none from hmissing)
  rw [List.append_nil] at hwalk
  have hstatus : host.env.tree.status cwd (.ofLocation (host.base ++ loc)) = .error e := by
    show host.env.tree.walk linkLimit [] ((host.base ++ loc).map .name) = _
    rw [List.map_append, hleft, hwalk]
  rw [FsTree.pathExists, hstatus]

/-- SIZE of what is not there is refused. -/
theorem size_missing (hexact : host.Exact) {c : ControlConnection} (hc : c.Ready)
    (hpath : Spells path loc) (hfits : FitsLine path) (hmissing : host.tree.find loc = none) :
    ∃ e, ∃ c' : ControlConnection, c'.Ready ∧
      ControlClient.size host.options host.env (some c) path = (.error e, some c') := by
  have hvirtual := hpath.virtual_ne_root
  have hresolve : c.resolve host.options host.env { action := .querySize, path := path }
      .existingFile (ascii "SIZE") = refusePath (ascii "SIZE") " path does not exist" := by
    rw [ControlConnection.resolve, resolveControlPath, hc.workingDirectory,
      resolveVirtualPath_spells hpath]
    dsimp only
    rw [if_neg (fun hand => hvirtual hand.1), host.root]
    dsimp only
    rw [if_neg (by decide), candidatePath_spelled, resolveExisting, pathExists_missing hexact hmissing,
      if_pos rfl]
  have hserve := host.serve_size hc hpath
  rw [ControlConnection.runSize, hresolve, refusePath] at hserve
  dsimp only at hserve
  rw [host.reply_eq] at hserve
  have hcommand := ControlClient.command_replied hpath.toSendable hfits (by decide +kernel) hserve
  rw [ControlClient.size, hcommand]
  exact ⟨.runtimeError (ascii "SIZE rejected"), _, hc.replied _, rfl⟩

end RemoteHost

/-! ### Paths of plain names -/

section Plain

variable {sourceDir : Bytes} {source below : List Name}

/-- The client's path of anything beneath the source directory, there or not. -/
theorem Spells.pathTo (hsource : Spells sourceDir source) (hplain : ∀ n ∈ below, PlainName n) :
    Spells (pathTo sourceDir below) (source ++ below) := by
  induction below using List.reverseRecOn with
  | nil =>
      rw [List.append_nil]
      exact hsource
  | append_singleton below n ih =>
      rw [pathTo_append, ← List.append_assoc]
      exact (ih fun m hm => hplain m (List.mem_append_left _ hm)).child
        (hplain n (List.mem_append_right _ (List.mem_singleton_self n)))

theorem Spells.joinRemotePath_relativeText (hsource : Spells sourceDir source)
    (hne : below ≠ []) (hplain : ∀ n ∈ below, PlainName n) :
    joinRemotePath sourceDir (relativeText below) = GridFlux.pathTo sourceDir below := by
  induction below using List.reverseRecOn with
  | nil => exact absurd rfl hne
  | append_singleton below n ih =>
      have hplain' : ∀ m ∈ below, PlainName m := fun m hm => hplain m (List.mem_append_left _ hm)
      rw [pathTo_append, (hsource.pathTo hplain').join_eq, hsource.join_eq]
      by_cases hbelow : below = []
      · rw [hbelow]
        rfl
      · rw [← ih hbelow hplain', hsource.join_eq, relativeText_append hbelow, List.append_assoc]
        rfl

end Plain

/-! ### The time of a file -/

/-- The time has a year that MDTM can spell. -/
def SpelledTime (mtime : Int) : Prop :=
  -9999 ≤ (civilFromDays (mtime / 86400)).1 ∧ mtime < 253402300800

instance (mtime : Int) : Decidable (SpelledTime mtime) := inferInstanceAs (Decidable (_ ∧ _))

theorem servedMdtm_spelled (unspecified : Bytes) {mtime : Int} (h : SpelledTime mtime) :
    (0 ≤ mtime ∧ servedMdtm unspecified mtime = .ok mtime) ∨
      (mtime < 0 ∧ ∃ e, servedMdtm unspecified mtime = .error e) := by
  obtain ⟨hlow, hhigh⟩ := h
  by_cases hsign : 0 ≤ mtime
  · obtain ⟨hyear, hyear'⟩ := civilFromDays_year (mtime / 86400) (by omega) (by omega)
    have hconvertible : Convertible mtime := ⟨by omega, by omega⟩
    rw [← gmtime_year hconvertible] at hyear hyear'
    refine .inl ⟨hsign, ?_⟩
    rw [servedMdtm_fourDigits unspecified hconvertible (by omega) hyear', if_neg (by omega)]
  · have hneg : mtime < 0 := Int.not_le.mp hsign
    have hyear := civilFromDays_year_lt (mtime / 86400) (by omega)
    have hconvertible : Convertible mtime := ⟨by omega, by omega⟩
    rw [← gmtime_year hconvertible] at hyear hlow
    refine .inr ⟨hneg, ?_⟩
    by_cases hfour : 1000 ≤ (gmtime mtime).year
    · rw [servedMdtm_fourDigits unspecified hconvertible hfour (by omega), if_pos hneg]
      exact ⟨_, rfl⟩
    · have hearly := servedMdtm_early unspecified hlow (by omega)
      rcases hserved : servedMdtm unspecified mtime with e | value
      · exact ⟨e, rfl⟩
      · rw [hserved] at hearly
        cases hearly

/-! ### One record -/

/-- The command of a record can be sent and read. -/
def Askable (sourceDir : Bytes) (record : TreeFileRecord) : Prop :=
  ∃ below : List Name, record.relativePath = relativeText below ∧ below ≠ [] ∧
    (∀ n ∈ below, PlainName n) ∧ FitsLine (pathTo sourceDir below)

/-- The local file of a completed record is as it was recorded. -/
def KeptLocally (statRegularFile : Bytes → Except Status FileMetadata) (destDir : Bytes)
    (record : TreeFileRecord) : Prop :=
  record.status = .completed → statRegularFile (appendPath destDir record.relativePath) =
    .ok ⟨record.size, record.mtimeUnixSeconds⟩

namespace RemoteHost

/-- The host has the file of a record, as it was recorded. -/
def Serves (host : RemoteHost) (source : List Name) (record : TreeFileRecord) : Prop :=
  0 ≤ record.mtimeUnixSeconds ∧ ∃ below : List Name, record.relativePath = relativeText below ∧
    host.tree.find (source ++ below) = some (.file record.size record.mtimeUnixSeconds)

/-- MDTM can spell the time of every file. -/
def SpellsTimes (host : RemoteHost) : Prop :=
  ∀ loc size mtime, host.tree.find loc = some (.file size mtime) → SpelledTime mtime

end RemoteHost

theorem completedFileChange_eq_none {options : TreeTransferOptions}
    {statRegularFile : Bytes → Except Status FileMetadata} {record : TreeFileRecord} :
    completedFileChange options statRegularFile record = none ↔
      KeptLocally statRegularFile options.destDir record := by
  rw [completedFileChange, KeptLocally]
  by_cases hstatus : record.status = .completed
  · rw [if_neg (not_not.mpr hstatus)]
    rcases statRegularFile (appendPath options.destDir record.relativePath) with e | metadata
    · exact ⟨fun h => (by cases h), fun h => (by cases h hstatus)⟩
    · dsimp only
      have hmatches := @metadataMatches_iff record metadata
      rcases hcase : metadataMatches record metadata with - | -
      · rw [if_pos rfl]
        refine ⟨fun h => (by cases h), fun h => ?_⟩
        rw [hmatches.mpr (Except.ok.inj (h hstatus))] at hcase
        cases hcase
      · rw [if_neg (Bool.noConfusion)]
        exact ⟨fun _ _ => congrArg Except.ok (hmatches.mp hcase), fun _ => rfl⟩
  · rw [if_pos hstatus]
    exact ⟨fun _ h => absurd h hstatus, fun _ => rfl⟩

section Record

variable {host : RemoteHost} {options : TreeTransferOptions} {source below : List Name}
  {statRegularFile : Bytes → Except Status FileMetadata} {record : TreeFileRecord}

/-- Another location has another relative path. -/
theorem serves_iff (hpath : record.relativePath = relativeText below) :
    host.Serves source record ↔ 0 ≤ record.mtimeUnixSeconds ∧
      host.tree.find (source ++ below) =
        some (.file record.size record.mtimeUnixSeconds) := by
  refine and_congr_right fun _ => ⟨fun ⟨other, hother, hfind⟩ => ?_, fun hfind =>
    ⟨below, hpath, hfind⟩⟩
  rwa [relativeText_injective (hpath.symm.trans hother)]

/-- **A round of the loop** finds nothing exactly if the host has the file and
the local one has been kept; the connection goes on. -/
theorem downloadRecordChange_spec (hexact : host.Exact) (htimes : host.SpellsTimes)
    (hsource : Spells options.sourceDir source) (haskable : Askable options.sourceDir record)
    {c : ControlConnection} (hc : c.Ready) :
    ∃ change, ∃ c' : ControlConnection, c'.Ready ∧
      downloadRecordChange host.options host.env options statRegularFile record (some c) =
        (change, some c') ∧
      (change = none ↔ host.Serves source record ∧
        KeptLocally statRegularFile options.destDir record) := by
  obtain ⟨below, hpath, hne, hplain, hfits⟩ := haskable
  have hspells := hsource.pathTo hplain
  rw [serves_iff hpath, downloadRecordChange, hpath,
    hsource.joinRemotePath_relativeText hne hplain]
  dsimp only
  rcases hfind : host.tree.find (source ++ below) with - | ⟨size, mtime⟩ | entries
  · obtain ⟨e, c', hc', hsize⟩ := RemoteHost.size_missing hexact hc hspells hfits hfind
    rw [hsize]
    exact ⟨_, c', hc', rfl, fun h => (by cases h), fun h => (by cases h.1.2)⟩
  · obtain ⟨c₁, hc₁, hsize⟩ := host.size_file hc hspells hfits hfind
    obtain ⟨c', hc', hmdtm⟩ := host.mdtm_file hc₁ hspells hfits hfind
    rw [hsize]
    dsimp only
    rw [hmdtm]
    change ∃ change c'', ControlConnection.Ready c'' ∧
      (match (servedMdtm host.env.unspecified mtime, some c') with
        | (.error e, link) => _
        | (.ok remoteMtime, link) => _) = (change, some c'') ∧ _
    rcases servedMdtm_spelled host.env.unspecified (htimes _ _ _ hfind) with
      ⟨hsign, hserved⟩ | ⟨hneg, e, hserved⟩
    · rw [hserved]
      dsimp only
      have hmatches := @metadataMatches_iff record ⟨size, mtime⟩
      rcases hcase : metadataMatches record ⟨size, mtime⟩ with - | -
      · rw [if_pos rfl]
        refine ⟨_, c', hc', rfl, fun h => (by cases h), fun ⟨⟨_, hfile⟩, _⟩ => ?_⟩
        obtain ⟨rfl, rfl⟩ := DirTree.file.inj (Option.some.inj hfile)
        rw [hmatches.mpr rfl] at hcase
        cases hcase
      · rw [if_neg Bool.noConfusion]
        refine ⟨_, c', hc', rfl, ?_⟩
        obtain ⟨rfl, rfl⟩ := FileMetadata.mk.inj (hmatches.mp hcase)
        rw [completedFileChange_eq_none]
        exact ⟨fun hkept => ⟨⟨hsign, rfl⟩, hkept⟩, fun h => h.2⟩
    · rw [hserved]
      refine ⟨_, c', hc', rfl, fun h => (by cases h), fun ⟨⟨hsign, hfile⟩, _⟩ => ?_⟩
      obtain ⟨-, rfl⟩ := DirTree.file.inj (Option.some.inj hfile)
      exact absurd hsign (Int.not_le.mpr hneg)
  · obtain ⟨e, c', hc', hsize⟩ := host.size_directory hc hspells hfits hfind
    rw [hsize]
    exact ⟨_, c', hc', rfl, fun h => (by cases h), fun h => (by cases h.1.2)⟩

end Record

/-! ### The preflight -/

section Preflight

variable {host : RemoteHost} {options : TreeTransferOptions} {source : List Name}
  {statRegularFile : Bytes → Except Status FileMetadata}

/-- The host has the file of the record, and so has the client if the record is
completed. -/
def StillGood (host : RemoteHost) (source : List Name)
    (statRegularFile : Bytes → Except Status FileMetadata) (destDir : Bytes)
    (record : TreeFileRecord) : Prop :=
  host.Serves source record ∧ KeptLocally statRegularFile destDir record

/-- What the loop finds. -/
inductive FirstChange (good : TreeFileRecord → Prop) (index : Nat) (records : List TreeFileRecord) :
    Option (Nat × Bytes) → Prop
  | none (hgood : ∀ record ∈ records, good record) : FirstChange good index records none
  | found {before after : List TreeFileRecord} {record : TreeFileRecord} (message : Bytes)
      (hrecords : records = before ++ record :: after) (hgood : ∀ earlier ∈ before, good earlier)
      (hbad : ¬good record) :
      FirstChange good index records (some (index + before.length, message))

theorem firstDownloadChange_spec (hexact : host.Exact) (htimes : host.SpellsTimes)
    (hsource : Spells options.sourceDir source) (index : Nat) {records : List TreeFileRecord}
    (haskable : ∀ record ∈ records, Askable options.sourceDir record) {c : ControlConnection}
    (hc : c.Ready) :
    FirstChange (StillGood host source statRegularFile options.destDir) index records
      (firstDownloadChange host.options host.env options statRegularFile index records
        (some c)) := by
  induction records generalizing index c with
  | nil => exact .none fun record hmem => (by cases hmem)
  | cons record records ih =>
      rw [List.forall_mem_cons] at haskable
      obtain ⟨change, c', hc', hchange, hnone⟩ := @downloadRecordChange_spec host options source
        statRegularFile record hexact htimes hsource haskable.1 c hc
      rw [firstDownloadChange, hchange]
      cases change with
      | some message =>
          refine @FirstChange.found _ index _ [] records record message rfl
            (fun _ hmem => (by cases hmem)) fun hgood => ?_
          cases hnone.mpr hgood
      | none =>
          have hgood := hnone.mp rfl
          dsimp only
          have hrest := ih (index + 1) haskable.2 hc'
          generalize firstDownloadChange host.options host.env options statRegularFile (index + 1)
            records (some c') = found at hrest
          cases hrest with
          | none hall => exact .none (List.forall_mem_cons.mpr ⟨hgood, hall⟩)
          | @found before after bad message hrecords hall hbad =>
              rw [Nat.add_assoc, Nat.add_comm 1]
              exact @FirstChange.found _ index _ (record :: before) after bad message
                (congrArg _ hrecords) (List.forall_mem_cons.mpr ⟨hgood, hall⟩) hbad

/-- **The preflight of a download is exact.**  Against a host whose root holds a
tree and nothing else, it passes if and only if the host still has every file of
the manifest with its size and time, and the local file of every completed record
is as recorded; then nothing has changed.  Otherwise the first record for which
this fails is marked, and no other. -/
theorem preflightDownloadResume_exact (hexact : host.Exact) (htimes : host.SpellsTimes)
    (hsource : Spells options.sourceDir source) {c : ControlConnection} (hc : c.Ready)
    (hresume : options.resume = true) (saving : Saving) (s : SchedulerState)
    (haskable : ∀ record ∈ s.manifest.files, Askable options.sourceDir record)
    {result : Except Status Unit} {s' : SchedulerState}
    (hrun : preflightDownloadResume host.options host.env options statRegularFile (.ok c) saving s =
      (result, s')) :
    (result = .ok () ↔ ∀ record ∈ s.manifest.files,
        StillGood host source statRegularFile options.destDir record) ∧
      (result = .ok () → s' = s) ∧
      (result ≠ .ok () → ∃ before record after message,
        s.manifest.files = before ++ record :: after ∧
        (∀ earlier ∈ before, StillGood host source statRegularFile options.destDir earlier) ∧
        ¬StillGood host source statRegularFile options.destDir record ∧
        s'.manifest.files =
          before ++ { record with status := .changed, error := message } :: after) := by
  have hresumed : ¬options.resume = false := by
    rw [hresume]
    exact Bool.noConfusion
  rw [preflightDownloadResume, if_neg hresumed] at hrun
  have hfound := @firstDownloadChange_spec host options source statRegularFile hexact htimes hsource 0
    s.manifest.files haskable c hc
  generalize firstDownloadChange host.options host.env options statRegularFile 0 s.manifest.files
    (some c) = found at hfound hrun
  cases hfound with
  | none hgood =>
      cases hrun
      exact ⟨⟨fun _ => hgood, fun _ => rfl⟩, fun _ => rfl, fun h => absurd rfl h⟩
  | @found before after record message hrecords hgood hbad =>
      rw [Nat.zero_add] at hrun
      have hrecord : s.manifest.files[before.length]? = some record := by
        rw [hrecords, List.getElem?_append_right le_rfl, Nat.sub_self]
        rfl
      have hmem : record ∈ s.manifest.files := List.mem_of_getElem? hrecord
      obtain ⟨⟨e, herror⟩, hfiles⟩ := @markManifestChanged_spec s _ record message hrecord saving
      dsimp only at hrun
      rw [hrun] at herror hfiles
      obtain rfl : result = .error e := herror
      refine ⟨⟨fun h => (by cases h), fun hall => absurd (hall record hmem) hbad⟩,
        fun h => (by cases h), fun _ => ⟨before, record, after, message, hrecords, hgood, hbad, ?_⟩⟩
      rw [show s'.manifest.files = _ from hfiles, hrecords, List.set_append_right _ _ le_rfl,
        Nat.sub_self]
      rfl

end Preflight

/-! ### A tree of one file -/

theorem twoLevels_file {loc : List Name} {size : Nat} {mtime : Int}
    (h : twoLevelsHost.tree.find loc = some (.file size mtime)) : size = 3 ∧ mtime = 86400 := by
  have hlookup : ∀ (n m : Name) (child : DirTree), List.lookup n [(m, child)] =
      if n = m then some child else none := by
    intro n m child
    rw [List.lookup_cons]
    by_cases hn : n = m
    · rw [if_pos hn, beq_iff_eq.mpr hn]
    · rw [if_neg hn, beq_eq_false_iff_ne.mpr hn]
      rfl
  change twoLevels.find loc = _ at h
  rcases loc with - | ⟨n, rest⟩
  · rw [twoLevels, DirTree.find_nil] at h
    cases h
  rw [twoLevels, DirTree.find, hlookup] at h
  split_ifs at h with hn
  · dsimp only at h
    rcases rest with - | ⟨m, rest⟩
    · rw [DirTree.find_nil] at h
      cases h
    rw [DirTree.find, hlookup] at h
    split_ifs at h with hm
    dsimp only at h
    rcases rest with - | ⟨k, rest⟩
    · rw [DirTree.find_nil] at h
      cases h
      exact ⟨rfl, rfl⟩
    · cases h

theorem twoLevelsHost_exact : twoLevelsHost.Exact := fun loc hnone => by
  show (twoLevelsHost.tree.find loc).map DirTree.entry = none
  rw [hnone]
  rfl

theorem spells_nameA : Spells (ascii "a") [nameA] :=
  @RemoteHost.spells_of_valid twoLevelsHost (ascii "a") (ascii "--source-dir") [nameA] _
    (by decide +kernel) (by decide) (by decide +kernel) rfl

/-- The file has become longer since it was recorded. -/
def grownDownload : SchedulerState where
  manifest := ⟨1, .download, ascii "a", .crc32c, 1, 1,
    [⟨ascii "b", 2, 86400, ascii "t", .failed, []⟩]⟩
  disk := []

theorem preflightDownloadResume_grown :
    ∃ e s', preflightDownloadResume twoLevelsHost.options twoLevelsHost.env
        ⟨ascii "a", ascii "d", 1, true, 0⟩ (fun _ => .ok ⟨2, 86400⟩) (.ok preparedConnection)
        ⟨9, .ok ()⟩ grownDownload = (.error e, s') ∧
      ∃ (record : TreeFileRecord) (message : Bytes),
        s'.manifest.files = [{ record with status := .changed, error := message }] := by
  rcases hrun : preflightDownloadResume twoLevelsHost.options twoLevelsHost.env
    ⟨ascii "a", ascii "d", 1, true, 0⟩ (fun _ => .ok ⟨2, 86400⟩) (.ok preparedConnection)
    ⟨9, .ok ()⟩ grownDownload with ⟨result, s'⟩
  obtain ⟨hiff, -, hmarked⟩ := preflightDownloadResume_exact twoLevelsHost_exact
    (fun loc size mtime h => by rw [(twoLevels_file h).2]; decide) spells_nameA
    preparedConnection_ready rfl ⟨9, .ok ()⟩ grownDownload (fun record hmem => by
      obtain rfl := List.mem_singleton.mp hmem
      exact ⟨[nameB], rfl, by decide, by decide +kernel, by decide +kernel⟩) hrun
  have hbad : result ≠ .ok () := by
    intro hok
    obtain ⟨⟨-, below, hpath, hfind⟩, -⟩ := hiff.mp hok _ (List.mem_singleton_self _)
    have hsize := (twoLevels_file hfind).1
    cases hsize
  obtain ⟨before, record, after, message, hrecords, -, -, hfiles⟩ := hmarked hbad
  rcases result with e | u
  · refine ⟨e, s', rfl, record, message, ?_⟩
    rcases before with - | ⟨first, before⟩
    · obtain ⟨rfl, rfl⟩ := List.cons.inj hrecords
      exact hfiles
    · have hlength := congrArg List.length hrecords
      rw [List.length_append, List.length_cons, List.length_cons] at hlength
      change 1 = _ at hlength
      omega
  · exact absurd rfl hbad

end GridFlux
