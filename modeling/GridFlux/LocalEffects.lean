/-
GridFlux/LocalEffects.lean

Operations that use some of the files only.

`w.amid S others` is the world `w` among other files: those in `S` stay, the
rest is as `others` has it.  An operation on paths in `S` does the same in
there, fails where it fails and leaves the rest alone; for each operation of
`World`, and for each method of a session, this is one equation.
-/
import Mathlib.Data.Set.Piecewise
import GridFlux.BufferedFileWriter
import GridFlux.Commit
import GridFlux.TransferSession

namespace GridFlux

open TextCodec

/-- The world with its files in `S` among other files. -/
noncomputable def World.amid (S : Set Path) (others : Path → Option Bytes) (w : World) : World :=
  open Classical in { w with files := S.piecewise w.files others }

/-- A result that comes with the world it leaves. -/
class WithWorld (R : Type) where
  mapWorld : (World → World) → R → R

instance : WithWorld World := ⟨fun g w => g w⟩

instance {α R : Type} [WithWorld R] : WithWorld (α × R) :=
  ⟨fun g r => (r.1, WithWorld.mapWorld g r.2)⟩

open WithWorld

section Local

variable {S : Set Path} (others : Path → Option Bytes) (w : World) {path : Path}

namespace World

/-! ### What the world among other files is like -/

@[simp] theorem amid_nextOutcome : (w.amid S others).nextOutcome = w.nextOutcome := rfl

@[simp] theorem amid_afterCall : (w.amid S others).afterCall = w.afterCall.amid S others := rfl

@[simp] theorem amid_isDirectory : (w.amid S others).isDirectory = w.isDirectory := rfl

@[simp] theorem amid_hardware :
    (w.amid S others).crc32cHardwareAvailable = w.crc32cHardwareAvailable := rfl

@[simp] theorem amid_manifestTempPath :
    (w.amid S others).manifestTempPath path = w.manifestTempPath path := rfl

@[simp] theorem amid_nowUnixNanos :
    (w.amid S others).nowUnixNanos = mapWorld (amid S others) w.nowUnixNanos := rfl

open Classical in
theorem amid_files (hpath : path ∈ S) : (w.amid S others).files path = w.files path :=
  Set.piecewise_eq_of_mem _ _ _ hpath

open Classical in
theorem amid_files_of_notMem (hpath : path ∉ S) : (w.amid S others).files path = others path :=
  Set.piecewise_eq_of_notMem _ _ _ hpath

theorem setFile_amid (hpath : path ∈ S) (content : Option Bytes) :
    (w.amid S others).setFile path content = (w.setFile path content).amid S others := by
  have hfiles : (w.amid S others).setFile path content =
      { w with files := ((w.setFile path content).amid S others).files } := by
    refine congrArg (fun files => ({ w with files := files } : World)) (funext fun p => ?_)
    by_cases hp : p = path
    · subst hp
      rw [Function.update_self, amid_files _ _ hpath, setFile_files_self]
    · rw [Function.update_of_ne hp]
      by_cases hS : p ∈ S
      · rw [amid_files _ _ hS, amid_files _ _ hS, setFile_files_of_ne _ _ hp]
      · rw [amid_files_of_notMem _ _ hS, amid_files_of_notMem _ _ hS]
  exact hfiles

/-! ### The calls -/

theorem pathExists_amid (hpath : path ∈ S) :
    (w.amid S others).pathExists path = mapWorld (amid S others) (w.pathExists path) := by
  rw [pathExists, pathExists, amid_nextOutcome, amid_files _ _ hpath]
  cases w.nextOutcome with
  | failure e moved => rfl
  | success => rfl

theorem removePath_amid (hpath : path ∈ S) :
    (w.amid S others).removePath path = mapWorld (amid S others) (w.removePath path) := by
  rw [removePath, removePath, amid_nextOutcome, amid_afterCall, amid_isDirectory,
    setFile_amid _ _ hpath]
  cases w.nextOutcome with
  | failure e moved => rfl
  | success =>
      dsimp only
      split
      · rfl
      · rfl

theorem renamePath_amid {source target : Path} (hsource : source ∈ S) (htarget : target ∈ S) :
    (w.amid S others).renamePath source target =
      mapWorld (amid S others) (w.renamePath source target) := by
  rw [renamePath, renamePath, amid_nextOutcome, amid_afterCall, amid_isDirectory,
    amid_files _ _ hsource]
  cases w.nextOutcome with
  | failure e moved => rfl
  | success =>
      cases w.files source with
      | none => rfl
      | some content =>
          dsimp only
          rw [setFile_amid _ _ hsource, setFile_amid _ _ htarget]
          split
          · rfl
          · split
            · rfl
            · rfl

theorem openExisting_amid (operation : Bytes) (hpath : path ∈ S) :
    (w.amid S others).openExisting operation path =
      mapWorld (amid S others) (w.openExisting operation path) := by
  rw [openExisting, openExisting, amid_nextOutcome, amid_isDirectory, amid_files _ _ hpath]
  cases w.nextOutcome with
  | failure e moved => rfl
  | success =>
      dsimp only
      split
      · rfl
      · split
        · rfl
        · rfl

theorem openReadWriteExclusive_amid (hpath : path ∈ S) :
    (w.amid S others).openReadWriteExclusive path =
      mapWorld (amid S others) (w.openReadWriteExclusive path) := by
  rw [openReadWriteExclusive, openReadWriteExclusive, amid_nextOutcome, amid_isDirectory,
    amid_afterCall, amid_files _ _ hpath, setFile_amid _ _ hpath]
  cases w.nextOutcome with
  | failure e moved => rfl
  | success =>
      dsimp only
      split
      · rfl
      · rfl

theorem readAtAll_amid (hpath : path ∈ S) (offset length : Nat) :
    (w.amid S others).readAtAll path offset length =
      mapWorld (amid S others) (w.readAtAll path offset length) := by
  rw [readAtAll, readAtAll, amid_nextOutcome, amid_files _ _ hpath]
  split
  · rfl
  · split
    · rfl
    · cases w.nextOutcome with
      | failure e moved => rfl
      | success =>
          cases w.files path with
          | none => rfl
          | some content =>
              dsimp only
              split
              · rfl
              · rfl

theorem writeAtAll_amid (hpath : path ∈ S) (offset : Nat) (data : Bytes) :
    (w.amid S others).writeAtAll path offset data =
      mapWorld (amid S others) (w.writeAtAll path offset data) := by
  rw [writeAtAll, writeAtAll, amid_nextOutcome, amid_afterCall, amid_files _ _ hpath]
  simp only [setFile_amid _ _ hpath]
  split
  · rfl
  · split
    · rfl
    · cases w.nextOutcome with
      | failure e moved => rfl
      | success => rfl

theorem resize_amid (hpath : path ∈ S) (size : Nat) :
    (w.amid S others).resize path size = mapWorld (amid S others) (w.resize path size) := by
  rw [resize, resize, amid_nextOutcome, amid_afterCall, amid_files _ _ hpath,
    setFile_amid _ _ hpath]
  split
  · rfl
  · cases w.nextOutcome with
    | failure e moved => rfl
    | success => rfl

theorem preallocate_amid (hpath : path ∈ S) (size : Nat) :
    (w.amid S others).preallocate path size =
      mapWorld (amid S others) (w.preallocate path size) := by
  rw [preallocate, preallocate, amid_nextOutcome, amid_afterCall, amid_files _ _ hpath,
    setFile_amid _ _ hpath]
  split
  · rfl
  · split
    · rfl
    · cases w.nextOutcome with
      | failure e moved => rfl
      | success => rfl

theorem sync_amid : (w.amid S others).sync = mapWorld (amid S others) w.sync := by
  rw [sync, sync, amid_nextOutcome]
  cases w.nextOutcome with
  | failure e moved => rfl
  | success => rfl

theorem fsyncPath_amid (hpath : path ∈ S) :
    (w.amid S others).fsyncPath path = mapWorld (amid S others) (w.fsyncPath path) := by
  rw [fsyncPath, fsyncPath, openReadOnly, openReadOnly, openExisting_amid _ _ _ hpath]
  rcases w.openExisting (ascii "open read-only") path with ⟨e | _, w₁⟩
  · rfl
  · exact sync_amid others w₁

theorem fsyncParentDirectory_amid :
    (w.amid S others).fsyncParentDirectory = mapWorld (amid S others) w.fsyncParentDirectory := by
  rw [fsyncParentDirectory, fsyncParentDirectory, amid_nextOutcome, amid_afterCall,
    amid_nextOutcome, amid_afterCall]
  cases w.nextOutcome with
  | failure e moved => rfl
  | success =>
      cases w.afterCall.nextOutcome with
      | failure e moved => rfl
      | success => rfl

theorem posixFadvise_amid :
    (w.amid S others).posixFadvise = mapWorld (amid S others) w.posixFadvise := by
  rw [posixFadvise, posixFadvise, amid_nextOutcome]
  cases w.nextOutcome with
  | failure e moved => rfl
  | success => rfl

theorem applyFileIoAdvice_amid (advice : FileIoAdvice) (length : Nat) :
    (w.amid S others).applyFileIoAdvice advice length =
      mapWorld (amid S others) (w.applyFileIoAdvice advice length) := by
  rw [applyFileIoAdvice, applyFileIoAdvice, posixFadvise_amid]
  split
  · rfl
  · split
    · rfl
    · rcases w.posixFadvise with ⟨e | _, w₁⟩
      · rfl
      · show (if advice = .sequentialDontNeed then (w₁.amid S others).posixFadvise
          else (.ok (), w₁.amid S others) : Effect Unit) = _
        rw [posixFadvise_amid]
        dsimp only
        split
        · rfl
        · rfl

theorem runWrites_amid (hpath : path ∈ S) (jobs : List WriteJob) :
    (w.amid S others).runWrites path jobs =
      mapWorld (amid S others) (w.runWrites path jobs) := by
  induction jobs generalizing w with
  | nil => rfl
  | cons job jobs ih =>
      rw [runWrites, runWrites, writeAtAll_amid _ _ hpath]
      rcases w.writeAtAll path job.offset job.data with ⟨e | _, w₁⟩
      · rfl
      · exact ih w₁

/-! ### The manifest file -/

theorem openTruncate_amid (operation : Bytes) (hpath : path ∈ S) :
    (w.amid S others).openTruncate operation path =
      mapWorld (amid S others) (w.openTruncate operation path) := by
  rw [openTruncate, openTruncate, amid_nextOutcome, amid_isDirectory, amid_afterCall,
    setFile_amid _ _ hpath]
  cases w.nextOutcome with
  | failure e moved => rfl
  | success =>
      dsimp only
      split
      · rfl
      · rfl

theorem writeAll_amid (operation : Bytes) (hpath : path ∈ S) (text : Bytes) :
    (w.amid S others).writeAll operation path text =
      mapWorld (amid S others) (w.writeAll operation path text) := by
  rw [writeAll, writeAll, amid_nextOutcome, amid_afterCall]
  simp only [setFile_amid _ _ hpath]
  cases w.nextOutcome with
  | failure e moved => rfl
  | success => rfl

theorem close_amid (operation : Bytes) :
    (w.amid S others).close operation = mapWorld (amid S others) (w.close operation) := by
  rw [close, close, amid_nextOutcome]
  cases w.nextOutcome with
  | failure e moved => rfl
  | success => rfl

theorem writeTemp_amid (texts : SaveTexts) (hpath : path ∈ S) (text : Bytes) :
    (w.amid S others).writeTemp texts path text =
      mapWorld (amid S others) (w.writeTemp texts path text) := by
  have hremove : ∀ (e : Status) (w : World),
      ((.error e, ((w.amid S others).removePath path).2) : Effect Unit) =
        mapWorld (amid S others) ((.error e, (w.removePath path).2) : Effect Unit) := by
    intro e w
    rw [removePath_amid _ _ hpath]
    rfl
  rw [writeTemp, writeTemp, openTruncate_amid _ _ _ hpath]
  rcases w.openTruncate texts.openTemp path with ⟨e | _, w₁⟩
  · rfl
  · dsimp only [mapWorld]
    rw [writeAll_amid _ _ _ hpath]
    rcases w₁.writeAll texts.writeTemp path text with ⟨e | _, w₂⟩
    · exact hremove e w₂
    · dsimp only [mapWorld]
      rw [close_amid]
      rcases w₂.close texts.closeTemp with ⟨e | _, w₃⟩
      · exact hremove e w₃
      · rfl

theorem saveAtomic_amid (texts : SaveTexts) (hpath : path ∈ S)
    (htemp : w.manifestTempPath path ∈ S) (text : Bytes) :
    (w.amid S others).saveAtomic texts path text =
      mapWorld (amid S others) (w.saveAtomic texts path text) := by
  rw [saveAtomic, saveAtomic, amid_manifestTempPath, writeTemp_amid _ _ _ htemp]
  rcases w.writeTemp texts (w.manifestTempPath path) text with ⟨e | _, w₁⟩
  · rfl
  · dsimp only [mapWorld]
    rw [renamePath_amid _ _ htemp hpath]
    rcases w₁.renamePath (w.manifestTempPath path) path with ⟨e | _, w₂⟩
    · show (Except.error e, ((w₂.amid S others).removePath _).2) = _
      rw [removePath_amid _ _ htemp]
      rfl
    · rfl

theorem readText_amid (openFailed readFailed : Bytes) (hpath : path ∈ S) :
    (w.amid S others).readText openFailed readFailed path =
      mapWorld (amid S others) (w.readText openFailed readFailed path) := by
  rw [readText, readText, amid_nextOutcome, amid_afterCall, amid_nextOutcome, amid_afterCall,
    amid_files _ _ hpath]
  cases w.nextOutcome with
  | failure e moved => rfl
  | success =>
      cases w.files path with
      | none => rfl
      | some text =>
          cases w.afterCall.nextOutcome with
          | failure e moved => rfl
          | success => rfl

end World

theorem loadTransferManifest_amid (hpath : path ∈ S) :
    loadTransferManifest (w.amid S others) path =
      mapWorld (World.amid S others) (loadTransferManifest w path) := by
  rw [loadTransferManifest, loadTransferManifest, World.readText_amid _ _ _ _ hpath]
  rcases w.readText (ascii "open manifest failed: ") (ascii "read manifest failed: ") path
    with ⟨e | text, w₁⟩
  · rfl
  · rfl

/-! ### The methods of a session -/

/-- The files of the session are in `S`, whatever process saves it. -/
structure Session.Within {P : Type} (S : Set Path) (s : Session P) : Prop where
  manifest : s.manifestPath ∈ S
  manifestTemp : ∀ w : World, w.manifestTempPath s.manifestPath ∈ S
  temp : s.manifest.tempPath ∈ S

theorem Session.Within.of_eq {P : Type} {s s' : Session P} (h : s.Within S)
    (hmanifest : s'.manifestPath = s.manifestPath)
    (htemp : s'.manifest.tempPath = s.manifest.tempPath) : s'.Within S := by
  refine ⟨?_, fun w => ?_, ?_⟩
  · rw [hmanifest]
    exact h.manifest
  · rw [hmanifest]
    exact h.manifestTemp w
  · rw [htemp]
    exact h.temp

/-- The methods of a session leave its files where they are. -/
theorem Session.Within.run {P : Type} {format : SessionFormat P} {s : Session P}
    (h : s.Within S) (op : SessionOp) : (op.run format s w).2.1.Within S :=
  h.of_eq (Session.Calls.run_manifestPath op s w) (Session.Calls.run_tempPath op s w)

theorem readChecksumLoop_amid (hpath : path ∈ S) (spans : List (Nat × Nat))
    (computer : ChecksumComputer) :
    readChecksumLoop path spans computer (w.amid S others) =
      mapWorld (World.amid S others) (readChecksumLoop path spans computer w) := by
  induction spans generalizing computer w with
  | nil => rfl
  | cons span spans ih =>
      rw [readChecksumLoop, readChecksumLoop, World.readAtAll_amid _ _ hpath]
      rcases w.readAtAll path span.1 span.2 with ⟨e | data, w₁⟩
      · rfl
      · exact ih w₁ _

theorem readChecksumForRecord_amid (hpath : path ∈ S) (record : ChunkChecksumRecord)
    (backend : ChecksumBackend) :
    readChecksumForRecord (w.amid S others) path record backend =
      mapWorld (World.amid S others) (readChecksumForRecord w path record backend) := by
  rw [readChecksumForRecord, readChecksumForRecord, readChecksumLoop_amid _ _ hpath,
    World.amid_hardware]
  rcases readChecksumLoop path (pieceSpans 65536 record.length record.offset record.length)
    (.new w.crc32cHardwareAvailable record.checksum.algorithm backend) w with ⟨e | computer, w₁⟩
  · rfl
  · rfl

namespace Session

variable {P : Type} (format : SessionFormat P) {s : Session P}

theorem save_amid (h : s.Within S) :
    s.save format (w.amid S others) = mapWorld (World.amid S others) (s.save format w) := by
  rw [save, save]
  have hnow : (w.amid S others).nowUnixNanos = mapWorld (World.amid S others) w.nowUnixNanos := rfl
  rw [hnow]
  dsimp only [mapWorld]
  cases serializePreparedManifest format.toManifestFormat
      (s.prepareSave format w.nowUnixNanos.1).manifest with
  | error e => rfl
  | ok text =>
      dsimp only
      have hsave := World.saveAtomic_amid others w.nowUnixNanos.2 format.saveTexts h.manifest
        (h.manifestTemp _) text
      have hpath : (s.prepareSave format w.nowUnixNanos.1).manifestPath = s.manifestPath := rfl
      rw [hpath, hsave]
      rcases w.nowUnixNanos.2.saveAtomic format.saveTexts s.manifestPath text with ⟨e | _, w₁⟩
      · rfl
      · rfl

theorem recordVerifiedChunk_amid (h : s.Within S) (chunkId offset length : Nat)
    (checksumValue : ChecksumValue) :
    s.recordVerifiedChunk format chunkId offset length checksumValue (w.amid S others) =
      mapWorld (World.amid S others)
        (s.recordVerifiedChunk format chunkId offset length checksumValue w) := by
  rw [recordVerifiedChunk, recordVerifiedChunk]
  split
  · rfl
  · split
    · rfl
    · cases s.manifest.verifiedChunks.find? (s.sameIdentity chunkId offset) with
      | some record =>
          dsimp only
          split
          · rfl
          · rfl
      | none =>
          dsimp only
          cases s.completed.insert offset length s.manifest.totalSize with
          | error e => rfl
          | ok completed =>
              dsimp only
              split
              · exact save_amid others w format (h.of_eq rfl rfl)
              · rfl

theorem verifyLoop_amid (hpath : path ∈ S) (backend : ChecksumBackend) (totalSize : Nat)
    (records : List ChunkChecksumRecord) (v : VerifyState) :
    verifyLoop backend path totalSize records v (w.amid S others) =
      mapWorld (World.amid S others) (verifyLoop backend path totalSize records v w) := by
  induction records generalizing v w with
  | nil => rfl
  | cons record rest ih =>
      rw [verifyLoop, verifyLoop, readChecksumForRecord_amid _ _ hpath]
      rcases readChecksumForRecord w path record backend with ⟨e | actual, w₁⟩
      · exact ih w₁ _
      · dsimp only [mapWorld]
        split
        · exact ih w₁ _
        · cases v.verified.insert record.offset record.length totalSize with
          | error e => rfl
          | ok verified => exact ih w₁ _

theorem verifyTempChunks_amid (h : s.Within S) (hpath : path ∈ S) :
    s.verifyTempChunks format path (w.amid S others) =
      mapWorld (World.amid S others) (s.verifyTempChunks format path w) := by
  rw [verifyTempChunks, verifyTempChunks, verifyLoop_amid _ _ hpath]
  split
  · rfl
  · rcases verifyLoop s.checksumBackend path s.manifest.totalSize s.manifest.verifiedChunks
      ⟨[], .empty, 0⟩ w with ⟨e | _, v, w₁⟩
    · rfl
    · dsimp only [mapWorld]
      split
      · rfl
      · exact save_amid others w₁ format (h.of_eq rfl rfl)

theorem markFailed_amid (h : s.Within S) :
    s.markFailed format (w.amid S others) =
      mapWorld (World.amid S others) (s.markFailed format w) :=
  save_amid others w format (h.of_eq rfl rfl)

theorem markCommitted_amid (h : s.Within S) :
    s.markCommitted format (w.amid S others) =
      mapWorld (World.amid S others) (s.markCommitted format w) :=
  save_amid others w format (h.of_eq rfl rfl)

theorem fail_amid (h : s.Within S) (reply : FrameStatusCode) (status : Status) :
    s.fail format reply status (w.amid S others) =
      mapWorld (World.amid S others) (s.fail format reply status w) := by
  rw [fail, fail, markFailed_amid _ _ _ h]
  rfl

end Session

/-! ### Opening a session -/

section Opening

variable {request : SessionRequest TransferPaths}

theorem TransferSession.createNew_amid :
    TransferSession.createNew request (w.amid S others) =
      mapWorld (World.amid S others) (TransferSession.createNew request w) := by
  rw [createNew, createNew, World.amid_hardware]
  cases validateSessionInputs request with
  | error e => rfl
  | ok _ =>
      cases resolveChecksumBackend w.crc32cHardwareAvailable request.checksumAlgorithm
          request.checksumBackend with
      | error e => rfl
      | ok backend => rfl

theorem TransferSession.resume_amid (hpath : manifestPathForOutput request.paths.outputPath ∈ S) :
    TransferSession.resume request (w.amid S others) =
      mapWorld (World.amid S others) (TransferSession.resume request w) := by
  rw [resume, resume, World.amid_hardware, loadTransferManifest_amid _ _ hpath]
  cases validateSessionInputs request with
  | error e => rfl
  | ok _ =>
      cases resolveChecksumBackend w.crc32cHardwareAvailable request.checksumAlgorithm
          request.checksumBackend with
      | error e => rfl
      | ok backend =>
          rcases loadTransferManifest w (manifestPathForOutput request.paths.outputPath)
            with ⟨e | manifest, w₁⟩
          · rfl
          · dsimp only [mapWorld]
            cases accept request manifest with
            | error e => rfl
            | ok accepted => rfl

end Opening

/-! ### The commit -/

section Commit

variable {P : Type} (format : SessionFormat P) {s : Session P} (options : CommitOptions)

theorem applyCommitSyncPolicy_amid (hpath : path ∈ S) (policy : CommitSyncPolicy) :
    applyCommitSyncPolicy (w.amid S others) path policy =
      mapWorld (World.amid S others) (applyCommitSyncPolicy w path policy) := by
  cases policy with
  | none => rfl
  | fsyncFile => exact World.fsyncPath_amid others w hpath
  | fsyncFileAndDir =>
      rw [applyCommitSyncPolicy, applyCommitSyncPolicy, World.fsyncPath_amid _ _ hpath]
      rcases w.fsyncPath path with ⟨e | _, w₁⟩
      · rfl
      · exact World.fsyncParentDirectory_amid others w₁

theorem finalVerify_amid (h : s.Within S) (missing : Bytes) (totalSize : Nat) :
    finalVerify format options missing totalSize s (w.amid S others) =
      mapWorld (World.amid S others) (finalVerify format options missing totalSize s w) := by
  rw [finalVerify, finalVerify]
  split
  · have hsaved : (s.save format w).2.1.Within S := h.run w .save
    rw [Session.save_amid _ _ _ h]
    rcases hsave : s.save format w with ⟨e | _, s₁, w₁⟩
    · rw [hsave] at hsaved
      exact Session.fail_amid others w₁ format hsaved _ _
    · rfl
  · have hverified : (s.verifyTempChunks format s.manifest.tempPath w).2.1.Within S :=
      h.run w (.verifyTempChunks s.manifest.tempPath)
    rw [Session.verifyTempChunks_amid _ _ _ h h.temp]
    rcases hverify : s.verifyTempChunks format s.manifest.tempPath w with ⟨e | _, s₁, w₁⟩
    · rw [hverify] at hverified
      exact Session.fail_amid others w₁ format hverified _ _
    · rw [hverify] at hverified
      dsimp only [mapWorld]
      split
      · exact Session.fail_amid others w₁ format hverified _ _
      · rfl

theorem sealOutput_amid (h : s.Within S) (hpath : options.path ∈ S) :
    sealOutput format options s (w.amid S others) =
      mapWorld (World.amid S others) (sealOutput format options s w) := by
  rw [sealOutput, sealOutput, applyCommitSyncPolicy_amid _ _ hpath]
  rcases applyCommitSyncPolicy w options.path options.commitSyncPolicy with ⟨e | _, w₁⟩
  · exact Session.fail_amid others w₁ format h _ _
  · dsimp only [mapWorld]
    rw [Session.markCommitted_amid _ _ _ h]
    rcases s.markCommitted format w₁ with ⟨e | _, s₂, w₂⟩
    · rfl
    · rfl

theorem publish_amid (h : s.Within S) (hpath : options.path ∈ S) :
    publish format options s (w.amid S others) =
      mapWorld (World.amid S others) (publish format options s w) := by
  rw [publish, publish, World.renamePath_amid _ _ h.temp hpath]
  rcases w.renamePath s.manifest.tempPath options.path with ⟨e | _, w₁⟩
  · exact Session.fail_amid others w₁ format h _ _
  · exact sealOutput_amid others w₁ format options h hpath

end Commit

end Local

end GridFlux
