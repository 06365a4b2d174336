/-
GridFlux/Commit.lean

How a receiver turns a complete temp file into the output: the steps that the
upload receiver and the download client share, with the policies that govern
them (`core/session/final_verify_policy.cpp`, `applyCommitSyncPolicy`).

Up to the rename every step, failing or not, keeps the transfer `Underway`:
the temp file is there with its content and the manifest on disk is not
committed.  After it, `sealOutput` either leaves the transfer `Published` or leaves
neither a temp file nor a committed manifest (`Renamed.sealed`).
-/
import GridFlux.Frame
import GridFlux.SessionDisk

namespace GridFlux

open HalfOpen TextCodec

/-! ### Policies -/

inductive FinalVerifyPolicy
  | full
  | verifiedChunks
deriving DecidableEq, Repr

inductive CommitSyncPolicy
  | none
  | fsyncFile
  | fsyncFileAndDir
deriving DecidableEq, Repr

def canUseVerifiedChunksFinalVerify (requested : FinalVerifyPolicy)
    (algorithm : ChecksumAlgorithm) (totalSize verifiedBytes : Nat) (hasMissingRanges : Bool) :
    Bool :=
  requested = .verifiedChunks ∧ algorithm = .crc32c ∧ ¬hasMissingRanges ∧
    verifiedBytes = totalSize

def canUseCurrentSessionVerifiedChunksFinalVerify (requested : FinalVerifyPolicy)
    (algorithm : ChecksumAlgorithm) (totalSize verifiedBytes : Nat) (hasMissingRanges : Bool)
    (loadedVerifiedChunks removedCorruptChunks : Nat) : Bool :=
  loadedVerifiedChunks = 0 ∧ removedCorruptChunks = 0 ∧
    canUseVerifiedChunksFinalVerify requested algorithm totalSize verifiedBytes hasMissingRanges

/-- `applyCommitSyncPolicy`. -/
def applyCommitSyncPolicy (w : World) (outputPath : Path) : CommitSyncPolicy → Effect Unit
  | .none => (.ok (), w)
  | .fsyncFile => w.fsyncPath outputPath
  | .fsyncFileAndDir =>
      match w.fsyncPath outputPath with
      | (.error e, w) => (.error e, w)
      | (.ok _, w) => w.fsyncParentDirectory

/-- What the commit reads of the options of either program. -/
structure CommitOptions where
  path : Path
  checksumAlgorithm : ChecksumAlgorithm
  finalVerifyPolicy : FinalVerifyPolicy
  commitSyncPolicy : CommitSyncPolicy
  overwrite : Bool
deriving DecidableEq, Repr

/-- Why a commit ends: the status it returns, and the status code of the ERROR
frame the upload receiver sends to every connection, if it sends one. -/
structure TransferError where
  reply : Option FrameStatusCode
  status : Status
deriving DecidableEq, Repr

/-- How a step of a commit ends, and the session and the world it leaves. -/
abbrev CommitResult (P : Type) := Except TransferError Unit × Session P × World

/-! ### The steps -/

section Steps

variable {P : Type} (format : SessionFormat P)

/-- `(void)session.markFailed();` on the way out. -/
def Session.fail (s : Session P) (reply : FrameStatusCode) (status : Status) (w : World) :
    CommitResult P :=
  (.error ⟨some reply, status⟩, (s.markFailed format w).2)

/-- The final verification: trust the checksums taken while receiving, or hash
the whole temp file again. -/
def finalVerify (options : CommitOptions) (missing : Bytes) (totalSize : Nat) (s : Session P)
    (w : World) : CommitResult P :=
  if canUseCurrentSessionVerifiedChunksFinalVerify options.finalVerifyPolicy
      options.checksumAlgorithm totalSize s.bytesCompleted false s.stats.loadedVerifiedChunks
      s.stats.removedCorruptChunks then
    match s.save format w with
    | (.error e, s, w) => s.fail format .internalError e w
    | (.ok _, s, w) => (.ok (), s, w)
  else
    match s.verifyTempChunks format s.manifest.tempPath w with
    | (.error e, s, w) => s.fail format .checksumMismatch e w
    | (.ok _, s, w) =>
        if s.missingRanges ≠ [] then s.fail format .missingRange (.runtimeError missing) w
        else (.ok (), s, w)

/-- What follows the rename: sync as the policy asks, then mark the manifest
committed. -/
def sealOutput (options : CommitOptions) (s : Session P) (w : World) : CommitResult P :=
  match applyCommitSyncPolicy w options.path options.commitSyncPolicy with
  | (.error e, w) => s.fail format .writeFailed e w
  | (.ok _, w) =>
      match s.markCommitted format w with
      | (.error e, s, w) => (.error ⟨some .internalError, e⟩, s, w)
      | (.ok _, s, w) => (.ok (), s, w)

/-- The rename and what follows it. -/
def publish (options : CommitOptions) (s : Session P) (w : World) : CommitResult P :=
  match w.renamePath s.manifest.tempPath options.path with
  | (.error e, w) => s.fail format .writeFailed e w
  | (.ok _, w) => sealOutput format options s w

end Steps

/-! ### Sessions and files along the way -/

section Calls

variable {P : Type} (format : SessionFormat P)

theorem Session.fail_quiet (s : Session P) (reply : FrameStatusCode) (status : Status)
    (w : World) :
    Session.QuietCalls format ∅ s w (s.fail format reply status w).2.1
      (s.fail format reply status w).2.2 :=
  .op .markFailed rfl

theorem Session.fail_calls (s : Session P) (reply : FrameStatusCode) (status : Status)
    (w : World) :
    Session.Calls format ∅ s w (s.fail format reply status w).2.1
      (s.fail format reply status w).2.2 :=
  (s.fail_quiet format reply status w).calls

theorem finalVerify_quiet (options : CommitOptions) (missing : Bytes) (totalSize : Nat)
    (s : Session P) (w : World) :
    Session.QuietCalls format ∅ s w (finalVerify format options missing totalSize s w).2.1
      (finalVerify format options missing totalSize s w).2.2 := by
  rw [finalVerify]
  split
  · have hsave : Session.QuietCalls format ∅ s w (s.save format w).2.1 (s.save format w).2.2 :=
      .op .save rfl
    rcases h : s.save format w with ⟨e | _, s', w'⟩
    · rw [h] at hsave
      exact hsave.trans (s'.fail_quiet format _ _ w')
    · rw [h] at hsave
      exact hsave
  · have hverify : Session.QuietCalls format ∅ s w
        (s.verifyTempChunks format s.manifest.tempPath w).2.1
        (s.verifyTempChunks format s.manifest.tempPath w).2.2 :=
      .op (.verifyTempChunks s.manifest.tempPath) rfl
    rcases h : s.verifyTempChunks format s.manifest.tempPath w with ⟨e | _, s', w'⟩
    · rw [h] at hverify
      exact hverify.trans (s'.fail_quiet format _ _ w')
    · rw [h] at hverify
      show Session.QuietCalls _ _ _ _ (if s'.missingRanges ≠ [] then _ else _ : CommitResult P).2.1
        (if s'.missingRanges ≠ [] then _ else _ : CommitResult P).2.2
      split
      · exact hverify.trans (s'.fail_quiet format _ _ w')
      · exact hverify

theorem finalVerify_calls (options : CommitOptions) (missing : Bytes) (totalSize : Nat)
    (s : Session P) (w : World) :
    Session.Calls format ∅ s w (finalVerify format options missing totalSize s w).2.1
      (finalVerify format options missing totalSize s w).2.2 :=
  (finalVerify_quiet format options missing totalSize s w).calls

theorem applyCommitSyncPolicy_frame (w : World) (outputPath : Path) (policy : CommitSyncPolicy) :
    World.Frame ∅ w (applyCommitSyncPolicy w outputPath policy).2 := by
  cases policy with
  | none => exact World.Frame.refl w
  | fsyncFile => exact World.fsyncPath_frame w outputPath
  | fsyncFileAndDir =>
      have hfile := World.fsyncPath_frame w outputPath
      rw [applyCommitSyncPolicy]
      rcases h : w.fsyncPath outputPath with ⟨e | _, w'⟩
      · rw [h] at hfile
        exact hfile
      · rw [h] at hfile
        exact hfile.trans (World.fsyncParentDirectory_frame w')

theorem sealOutput_quiet (options : CommitOptions) (s : Session P) (w : World) :
    Session.QuietCalls format ∅ s w (sealOutput format options s w).2.1
      (sealOutput format options s w).2.2 := by
  have hsync : Session.QuietCalls format ∅ s w s _ :=
    .framed (applyCommitSyncPolicy_frame w options.path options.commitSyncPolicy)
  rw [sealOutput]
  rcases h : applyCommitSyncPolicy w options.path options.commitSyncPolicy with ⟨e | _, w₁⟩
  · rw [h] at hsync
    exact hsync.trans (s.fail_quiet format _ _ w₁)
  · rw [h] at hsync
    have hmark : Session.QuietCalls format ∅ s w₁ (s.markCommitted format w₁).2.1
        (s.markCommitted format w₁).2.2 := .op .markCommitted rfl
    show Session.QuietCalls _ _ _ _ (match s.markCommitted format w₁ with
      | (.error e, s, w) => _
      | (.ok _, s, w) => _ : CommitResult P).2.1 (match s.markCommitted format w₁ with
      | (.error e, s, w) => _
      | (.ok _, s, w) => _ : CommitResult P).2.2
    rcases hcommit : s.markCommitted format w₁ with ⟨e | _, s', w'⟩
    · rw [hcommit] at hmark
      exact hsync.trans hmark
    · rw [hcommit] at hmark
      exact hsync.trans hmark

theorem sealOutput_calls (options : CommitOptions) (s : Session P) (w : World) :
    Session.Calls format ∅ s w (sealOutput format options s w).2.1
      (sealOutput format options s w).2.2 :=
  (sealOutput_quiet format options s w).calls

theorem publish_quiet (options : CommitOptions) (s : Session P) (w : World) :
    Session.QuietCalls format {s.manifest.tempPath, options.path} s w
      (publish format options s w).2.1 (publish format options s w).2.2 := by
  have hrename : Session.QuietCalls format {s.manifest.tempPath, options.path} s w s _ :=
    .framed (w.renamePath_frame s.manifest.tempPath options.path)
  rw [publish]
  rcases h : w.renamePath s.manifest.tempPath options.path with ⟨e | _, w₁⟩
  · rw [h] at hrename
    exact hrename.trans ((s.fail_quiet format _ _ w₁).mono (Set.empty_subset _))
  · rw [h] at hrename
    exact hrename.trans ((sealOutput_quiet format options s w₁).mono (Set.empty_subset _))

theorem publish_calls (options : CommitOptions) (s : Session P) (w : World) :
    Session.Calls format {s.manifest.tempPath, options.path} s w
      (publish format options s w).2.1 (publish format options s w).2.2 :=
  (publish_quiet format options s w).calls

end Calls

/-! ### What the disk says of a transfer -/

section Disk

variable {P : Type} (parse : Bytes → Except Status (Manifest P))

/-- The transfer can be resumed: the temp file is there, and there is a manifest
that is not committed. -/
structure Resumable (s : Session P) (w : World) : Prop where
  temp : (w.files s.manifest.tempPath).isSome
  manifest : OnDisk parse w s.manifestPath fun manifest => manifest.state ≠ .committed

/-- The transfer is over: the output holds the content, and the manifest says
so. -/
structure Published (output : Path) (content : Bytes) (s : Session P) (w : World) : Prop where
  output : w.files output = some content
  manifest : OnDisk parse w s.manifestPath fun manifest => manifest.state = .committed

/-- A commit that returns an error leaves the transfer resumable or
published. -/
def CommitAtomic (output : Path) (content : Bytes) (r : CommitResult P) : Prop :=
  ∀ e, r.1 = .error e → Resumable parse r.2.1 r.2.2 ∨ Published parse output content r.2.1 r.2.2

end Disk

/-! ### Before the rename -/

/-- The serializer accepts what a save of the session would write. -/
def Session.Serializable {P : Type} (format : SessionFormat P) (s : Session P) : Prop :=
  checkSerializable format.toManifestFormat
    { s.manifest with version := format.saveVersion s.manifest.version } = .ok ()

theorem Session.Sound.serializable {P : Type} {format : SessionFormat P} {hardware : Bool}
    {request : SessionRequest P} {s : Session P}
    (h : s.Sound format hardware request)
    (hversion : format.saveVersion s.manifest.version = format.version)
    (hid : isValidTransferId request.transferId) (hpaths : [] ∉ format.pathValues request.paths)
    (htemp : format.tempPathFor request.paths request.transferId ≠ [])
    (hchunk : request.chunkSize ≠ 0) : s.Serializable format := by
  rw [Session.Serializable, checkSerializable_eq_ok]
  refine ⟨hversion, ?_, ⟨?_, ?_⟩, ?_⟩
  · show isValidTransferId s.manifest.transferId
    rw [h.opened.transferId]
    exact hid
  · show [] ∉ format.pathValues s.manifest.paths
    rw [h.opened.paths]
    exact hpaths
  · show s.manifest.tempPath ≠ []
    rw [h.opened.tempPath]
    exact htemp
  · show s.manifest.chunkSize ≠ 0
    rw [h.opened.chunkSize]
    exact fun hzero => hchunk (UInt64.toNat_inj.mp hzero)

/-- A sound session that was asked for with valid inputs can be serialized. -/
theorem TransferSession.serializable_of_valid {hardware : Bool}
    {request : SessionRequest TransferPaths} {s : TransferSession}
    (hvalid : TransferSession.validateSessionInputs request = .ok ())
    (h : s.Sound transferSessionFormat hardware request) :
    s.Serializable transferSessionFormat := by
  simp only [TransferSession.validateSessionInputs, bind_eq_ok, require_eq_ok] at hvalid
  obtain ⟨_, houtput, _, hid, _, hchunk, -⟩ := hvalid
  refine h.serializable rfl hid ?_ ?_ hchunk
  · show [] ∉ [request.paths.outputPath]
    rw [List.mem_singleton]
    exact fun hnil => houtput hnil.symm
  · show tempPathForOutput request.paths.outputPath request.transferId ≠ []
    simp [tempPathForOutput, ascii]

/-- A transfer before its rename: a sound session that is not committed, its
manifest on disk, and its temp file with the content. -/
structure Underway {P : Type} (format : SessionFormat P)
    (parse : Bytes → Except Status (Manifest P)) (output : Path) (content : Bytes) (s : Session P)
    (w : World) : Prop where
  sound : ∃ hardware request, s.Sound format hardware request
  serializable : s.Serializable format
  uncommitted : s.manifest.state ≠ .committed
  apart : FilesApart w output s.manifest.tempPath s.manifestPath
  temp : w.files s.manifest.tempPath = some content
  manifest : OnDisk parse w s.manifestPath fun manifest => manifest.state ≠ .committed

section Before

variable {P : Type} {format : SessionFormat P} {parse : Bytes → Except Status (Manifest P)}
  {output : Path} {content : Bytes} {s : Session P} {w : World}

theorem FilesApart.congr {w w' : World} {output temp manifest : Path}
    (h : FilesApart w output temp manifest) (hpid : w'.pid = w.pid) :
    FilesApart w' output temp manifest := by
  have hname : w'.manifestTempPath manifest = w.manifestTempPath manifest := by
    rw [World.manifestTempPath, World.manifestTempPath, hpid]
  exact ⟨h.output_temp, h.output_manifest, hname ▸ h.output_manifestTemp, h.temp_manifest,
    hname ▸ h.temp_manifestTemp⟩

theorem Underway.resumable (h : Underway format parse output content s w) :
    Resumable parse s w :=
  ⟨by rw [h.temp]; rfl, h.manifest⟩

/-- A step that leaves the temp file and the manifest alone. -/
theorem Underway.frame {w' : World} {S : Set Path} (h : Underway format parse output content s w)
    (hframe : World.Frame S w w') (htemp : s.manifest.tempPath ∉ S)
    (hmanifest : s.manifestPath ∉ S) : Underway format parse output content s w' :=
  ⟨h.sound, h.serializable, h.uncommitted, h.apart.congr hframe.pid,
    (hframe.files _ htemp).trans h.temp, h.manifest.congr (hframe.files _ hmanifest)⟩

/-- A format whose `save` settles on a version. -/
def VersionSettles (format : SessionFormat P) : Prop :=
  ∀ version, format.saveVersion (format.saveVersion version) = format.saveVersion version

theorem Session.Serializable.run (hversion : VersionSettles format) (h : s.Serializable format)
    (op : SessionOp) (w : World) : (op.run format s w).2.1.Serializable format := by
  obtain ⟨s₁, hchange, hends⟩ := op.run_cases format s w
  have hsettled := hends.settled format
  generalize (op.run format s w).2.1 = s' at hsettled
  have h₁ : s₁.Serializable format := by
    rw [Session.Serializable, checkSerializable_eq_ok] at h ⊢
    cases hchange with
    | unchanged => exact h
    | state state => exact h
    | append record completed hop halg hnew hinsert => exact h
    | drop tempPath v hop halg hloop hremoved => exact h
  rw [Session.Serializable, checkSerializable_eq_ok] at h₁ ⊢
  cases hsettled with
  | kept stats => exact h₁
  | saved now hnow dirty stats =>
      refine ⟨?_, h₁.2⟩
      show format.saveVersion (format.saveVersion s₁.manifest.version) = _
      rw [hversion]
      exact h₁.1

/-- A session operation other than `markCommitted`. -/
theorem Underway.run (hread : ReadsBack format parse) (hversion : VersionSettles format)
    (h : Underway format parse output content s w) (op : SessionOp)
    (hstate : (op.run format s w).2.1.manifest.state ≠ .committed) :
    Underway format parse output content (op.run format s w).2.1 (op.run format s w).2.2 := by
  obtain ⟨hardware, request, hsound⟩ := h.sound
  have hsound' := hsound.run op w
  have htempPath : (op.run format s w).2.1.manifest.tempPath = s.manifest.tempPath :=
    hsound'.opened.tempPath.trans hsound.opened.tempPath.symm
  have hmanifestPath : (op.run format s w).2.1.manifestPath = s.manifestPath :=
    hsound'.opened.manifestPath.trans hsound.opened.manifestPath.symm
  have hframe := op.run_frame format s w
  refine ⟨⟨hardware, request, hsound'⟩, h.serializable.run hversion op w, hstate, ?_, ?_,
    hsound.onDisk hread op h.manifest hstate⟩
  · rw [htempPath, hmanifestPath]
    exact h.apart.congr hframe.pid
  · rw [htempPath, hframe.files _ ?_]
    · exact h.temp
    · simp [Session.diskFiles, h.apart.temp_manifest, h.apart.temp_manifestTemp]

theorem Underway.save (hread : ReadsBack format parse) (hversion : VersionSettles format)
    (h : Underway format parse output content s w) :
    Underway format parse output content (s.save format w).2.1 (s.save format w).2.2 :=
  h.run hread hversion .save (by
    show (s.save format w).2.1.manifest.state ≠ _
    rw [Session.save_state]
    exact h.uncommitted)

theorem Underway.fail (hread : ReadsBack format parse) (hversion : VersionSettles format)
    (h : Underway format parse output content s w) (reply : FrameStatusCode) (status : Status) :
    Underway format parse output content (s.fail format reply status w).2.1
      (s.fail format reply status w).2.2 :=
  h.run hread hversion .markFailed (by
    show (s.markFailed format w).2.1.manifest.state ≠ _
    rw [Session.markFailed_state]
    intro heq
    cases heq)

/-- The final verification, however it ends. -/
theorem Underway.finalVerify (hread : ReadsBack format parse) (hversion : VersionSettles format)
    (h : Underway format parse output content s w) (options : CommitOptions) (missing : Bytes)
    (totalSize : Nat) :
    Underway format parse output content
      (finalVerify format options missing totalSize s w).2.1
      (finalVerify format options missing totalSize s w).2.2 := by
  rw [GridFlux.finalVerify]
  split
  · have hsave := h.save hread hversion
    rcases hresult : s.save format w with ⟨e | _, s', w'⟩
    · rw [hresult] at hsave
      exact hsave.fail hread hversion _ _
    · rw [hresult] at hsave
      exact hsave
  · have hverify : Underway format parse output content
        (s.verifyTempChunks format s.manifest.tempPath w).2.1
        (s.verifyTempChunks format s.manifest.tempPath w).2.2 :=
      h.run hread hversion (.verifyTempChunks s.manifest.tempPath)
        (s.verifyTempChunks_state format _ w h.uncommitted)
    rcases hresult : s.verifyTempChunks format s.manifest.tempPath w with ⟨e | _, s', w'⟩
    · rw [hresult] at hverify
      exact hverify.fail hread hversion _ _
    · rw [hresult] at hverify
      show Underway _ _ _ _ (if s'.missingRanges ≠ [] then _ else _ : CommitResult P).2.1
        (if s'.missingRanges ≠ [] then _ else _ : CommitResult P).2.2
      by_cases hmissing : s'.missingRanges ≠ []
      · simp only [if_pos hmissing]
        exact hverify.fail hread hversion _ _
      · simp only [if_neg hmissing]
        exact hverify

end Before

/-! ### After the rename -/

/-- A transfer right after its rename: the temp file has become the output, and
the manifest on disk does not say so yet. -/
structure Renamed {P : Type} (format : SessionFormat P)
    (parse : Bytes → Except Status (Manifest P)) (output : Path) (content : Bytes) (s : Session P)
    (w : World) : Prop where
  sound : ∃ hardware request, s.Sound format hardware request
  serializable : s.Serializable format
  apart : FilesApart w output s.manifest.tempPath s.manifestPath
  temp : w.files s.manifest.tempPath = none
  moved : w.files output = some content
  notDirectory : w.isDirectory output = false
  manifest : OnDisk parse w s.manifestPath fun manifest => manifest.state ≠ .committed

section After

variable {P : Type} {format : SessionFormat P} {parse : Bytes → Except Status (Manifest P)}
  {output : Path} {content : Bytes} {s : Session P} {w w' : World}

/-- A failing rename has done nothing. -/
theorem Underway.rename_error (h : Underway format parse output content s w) {e : Status}
    (hrename : w.renamePath s.manifest.tempPath output = (.error e, w')) :
    Underway format parse output content s w' := by
  have hframe := w.renamePath_frame s.manifest.tempPath output
  rw [hrename] at hframe
  have hfiles := World.renamePath_error hrename
  exact ⟨h.sound, h.serializable, h.uncommitted, h.apart.congr hframe.pid, by rw [hfiles, h.temp],
    h.manifest.congr (by rw [hfiles])⟩

theorem Underway.rename (h : Underway format parse output content s w) {u : Unit}
    (hrename : w.renamePath s.manifest.tempPath output = (.ok u, w')) :
    Renamed format parse output content s w' := by
  have hframe := w.renamePath_frame s.manifest.tempPath output
  rw [hrename] at hframe
  obtain ⟨moved, hsource, htarget, hgone⟩ := World.renamePath_ok hrename h.apart.output_temp.symm
  rw [h.temp] at hsource
  obtain rfl := Option.some.inj hsource
  refine ⟨h.sound, h.serializable, h.apart.congr hframe.pid, hgone, htarget, ?_,
    h.manifest.congr (hframe.files _ ?_)⟩
  · rw [hframe.isDirectory]
    exact World.renamePath_ok_notDirectory hrename
  · simp [h.apart.temp_manifest.symm, h.apart.output_manifest.symm]

/-- A step that touches neither the output, nor the temp file, nor the
manifest. -/
theorem Renamed.frame (h : Renamed format parse output content s w)
    (hframe : World.Frame ∅ w w') : Renamed format parse output content s w' :=
  ⟨h.sound, h.serializable, h.apart.congr hframe.pid,
    (hframe.files _ (Set.notMem_empty _)).trans h.temp,
    (hframe.files _ (Set.notMem_empty _)).trans h.moved,
    (congrFun hframe.isDirectory output).trans h.notDirectory,
    h.manifest.congr (hframe.files _ (Set.notMem_empty _))⟩

/-- A transfer that can neither be resumed nor counts as done: no temp file, and
a manifest that is not committed. -/
structure Stranded (parse : Bytes → Except Status (Manifest P)) (s : Session P) (w : World) :
    Prop where
  temp : w.files s.manifest.tempPath = none
  manifest : OnDisk parse w s.manifestPath fun manifest => manifest.state ≠ .committed

theorem Stranded.not_resumable (h : Stranded parse s w) : ¬Resumable parse s w := fun hr => by
  have htemp := hr.temp
  rw [h.temp] at htemp
  cases htemp

theorem Stranded.not_published (h : Stranded parse s w) : ¬Published parse output content s w :=
  fun hp => by
    obtain ⟨-, manifest, -, -, hboth⟩ := h.manifest.unique hp.manifest
    exact hboth.1 hboth.2

/-- A session operation after the rename: the temp file stays away, the output
stays. -/
theorem Renamed.run_files (h : Renamed format parse output content s w) (op : SessionOp) :
    (op.run format s w).2.2.files (op.run format s w).2.1.manifest.tempPath = none ∧
      (op.run format s w).2.2.files output = some content := by
  obtain ⟨hardware, request, hsound⟩ := h.sound
  have hframe := op.run_frame format s w
  have htempPath : (op.run format s w).2.1.manifest.tempPath = s.manifest.tempPath :=
    (hsound.run op w).opened.tempPath.trans hsound.opened.tempPath.symm
  rw [htempPath]
  constructor
  · rw [hframe.files _ ?_]
    · exact h.temp
    · simp [Session.diskFiles, h.apart.temp_manifest, h.apart.temp_manifestTemp]
  · rw [hframe.files _ ?_]
    · exact h.moved
    · simp [Session.diskFiles, h.apart.output_manifest, h.apart.output_manifestTemp]

/-- How `sealOutput` ends: published, or stranded. -/
structure Sealed (parse : Bytes → Except Status (Manifest P)) (output : Path) (content : Bytes)
    (r : CommitResult P) : Prop where
  ok : ∀ u, r.1 = .ok u → Published parse output content r.2.1 r.2.2
  error : ∀ e, r.1 = .error e → Stranded parse r.2.1 r.2.2

/-- **After the rename** a commit either succeeds, and the transfer is
published, or fails, and the transfer is stranded. -/
theorem Renamed.sealed (hread : ReadsBack format parse) {options : CommitOptions}
    (h : Renamed format parse output content s w) :
    Sealed parse output content (sealOutput format options s w) := by
  have hsync := applyCommitSyncPolicy_frame w options.path options.commitSyncPolicy
  rw [GridFlux.sealOutput]
  rcases hresult : applyCommitSyncPolicy w options.path options.commitSyncPolicy with ⟨e | _, w₁⟩
  · -- the sync failed
    rw [hresult] at hsync
    have h₁ := h.frame hsync
    obtain ⟨hardware, request, hsound⟩ := h₁.sound
    refine ⟨fun u hu => (nomatch hu), fun e' _ => ⟨(h₁.run_files .markFailed).1, ?_⟩⟩
    refine hsound.onDisk hread .markFailed h₁.manifest ?_
    show (s.markFailed format w₁).2.1.manifest.state ≠ _
    rw [Session.markFailed_state]
    intro heq
    cases heq
  · rw [hresult] at hsync
    have h₁ := h.frame hsync
    obtain ⟨hardware, request, hsound⟩ := h₁.sound
    obtain ⟨htemp, houtput⟩ := h₁.run_files .markCommitted
    have hsound' : ({ s with manifest := { s.manifest with state := .committed } } :
        Session P).Sound format hardware request :=
      hsound.change (Change.state (P := P) (w := w₁) ManifestState.committed :
        Change format .markCommitted w₁ s _)
    show Sealed parse output content (match s.markCommitted format w₁ with
      | (.error e, s, w) => _
      | (.ok _, s, w) => _)
    simp only [SessionOp.run] at htemp houtput
    rcases hcommit : s.markCommitted format w₁ with ⟨e | _, s', w'⟩
    · -- the last save failed, and has left the manifest as it was
      rw [hcommit] at htemp houtput
      obtain ⟨hs', hfile⟩ := Session.save_error hcommit
      refine ⟨fun u hu => (nomatch hu), fun e' _ => ⟨htemp, ?_⟩⟩
      rw [hs'] at hfile ⊢
      exact h₁.manifest.congr hfile
    · rw [hcommit] at htemp houtput
      have hstate : s'.manifest.state = .committed := by
        have hmark := s.markCommitted_state format w₁
        rwa [hcommit] at hmark
      refine ⟨fun u _ => ⟨houtput, ?_⟩, fun e' he' => (nomatch he')⟩
      obtain ⟨text, manifest, htext, hparse, rfl⟩ := hsound'.save_stored hread hcommit
      exact ⟨text, _, htext, hparse, hstate⟩

end After

end GridFlux
