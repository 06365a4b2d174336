/-
GridFlux/CommitAtomicity.lean

What a failing commit leaves, on both sides of a transfer.

Up to the rename every step keeps the transfer `Underway`, so an error leaves
it resumable.  An error after the rename strands it: the temp file has gone and
the manifest on disk is not committed.  So a commit is atomic exactly if the
rename brings everything after it along (`commit_atomic`).
-/
import GridFlux.CommitCalls
import GridFlux.DownloadRuns
import GridFlux.ReceiverRuns

namespace GridFlux

open HalfOpen TextCodec

/-! ### From the rename on -/

/-- If the rename succeeds, so do the sync and the last save. -/
def RenameSealed {P : Type} (options : CommitOptions) (s : Session P) (w : World) : Prop :=
  w.CallsSucceed 1 → w.isDirectory options.path = false →
    w.CallsSucceed (1 + (syncCalls options.commitSyncPolicy + 4)) ∧ s.ManifestWritable w

section Publish

variable {P : Type} {format : SessionFormat P} {parse : Bytes → Except Status (Manifest P)}
  {options : CommitOptions} {content : Bytes} {s : Session P} {w : World}

/-- The temp file is given another content. -/
theorem Underway.rewrite {output : Path} {content' : Bytes} {w' : World}
    (h : Underway format parse output content s w)
    (hframe : World.Frame {s.manifest.tempPath} w w')
    (htemp : w'.files s.manifest.tempPath = some content') :
    Underway format parse output content' s w' :=
  ⟨h.sound, h.serializable, h.uncommitted, h.apart.congr hframe.pid, htemp,
    h.manifest.congr (hframe.files _ h.apart.temp_manifest.symm)⟩

theorem Underway.publish_ok_iff (h : Underway format parse options.path content s w) :
    (publish format options s w).1 = .ok () ↔
      w.CallsSucceed (1 + (syncCalls options.commitSyncPolicy + 4)) ∧
        w.isDirectory options.path = false ∧ s.ManifestWritable w := by
  rw [h.serializable.publish_ok_iff, PublishPasses, h.temp]
  simp

/-- **The rename and what follows it** are atomic exactly if an error cannot
come after the rename. -/
theorem Underway.publish_atomic_iff (hread : ReadsBack format parse)
    (hversion : VersionSettles format) (h : Underway format parse options.path content s w) :
    CommitAtomic parse options.path content (publish format options s w) ↔
      RenameSealed options s w := by
  have hok := h.publish_ok_iff
  obtain ⟨hrename, -⟩ := @World.renamePath_ok_iff w s.manifest.tempPath options.path
  rw [h.temp] at hrename
  rw [publish] at hok ⊢
  rcases hresult : w.renamePath s.manifest.tempPath options.path with ⟨e | _, w₁⟩
  · -- the rename itself failed
    rw [hresult] at hrename
    apply iff_of_true
    · intro e' _
      exact Or.inl ((h.rename_error hresult).fail hread hversion _ _).resumable
    · intro hfirst hdirectory
      exact absurd (hrename.mpr ⟨hfirst, rfl, hdirectory⟩) (by simp)
  · rw [hresult] at hrename hok
    obtain ⟨hfirst, -, hdirectory⟩ := hrename.mp rfl
    have hsealed : Sealed parse options.path content (sealOutput format options s w₁) :=
      (h.rename hresult).sealed hread
    have hrest : RenameSealed options s w ↔ (sealOutput format options s w₁).1 = .ok () := by
      apply Iff.trans _ hok.symm
      constructor
      · intro hcarries
        obtain ⟨hcalls, hwritable⟩ := hcarries hfirst hdirectory
        exact ⟨hcalls, hdirectory, hwritable⟩
      · rintro ⟨hcalls, -, hwritable⟩ - -
        exact ⟨hcalls, hwritable⟩
    show CommitAtomic parse options.path content (sealOutput format options s w₁) ↔ _
    rw [hrest]
    constructor
    · intro hatomic
      rcases hresult' : (sealOutput format options s w₁).1 with e | u
      · have hstranded := hsealed.error e hresult'
        rcases hatomic e hresult' with hresumable | hpublished
        · exact absurd hresumable hstranded.not_resumable
        · exact absurd hpublished hstranded.not_published
      · rfl
    · intro hdone e he
      rw [hdone] at he
      cases he

end Publish

/-! ### Up to the rename -/

theorem versionSettles_download : VersionSettles downloadSessionFormat := fun _ => rfl

namespace FileTransferServer

variable {options : FileTransferOptions} {content : Bytes} {s : TransferSession} {w : World}

theorem checkReceived_underway (totalSize : Nat)
    (h : Underway transferSessionFormat parseTransferManifest options.path content s w) :
    Underway transferSessionFormat parseTransferManifest options.path content
      (checkReceived options totalSize s w).2.1 (checkReceived options totalSize s w).2.2 := by
  have hread := transfer_readsBack
  have hversion : VersionSettles transferSessionFormat := fun _ => rfl
  rw [checkReceived]
  split
  · exact h.fail hread hversion _ _
  · have hverify := h.finalVerify hread hversion options.toCommitOptions
      (ascii "final verify found missing ranges") totalSize
    rcases hresult : finalVerify transferSessionFormat options.toCommitOptions
      (ascii "final verify found missing ranges") totalSize s w with ⟨e | _, s₁, w₁⟩
    · rw [hresult] at hverify
      exact hverify
    · rw [hresult] at hverify
      have hsave := hverify.save hread hversion
      rcases hresult' : s₁.save transferSessionFormat w₁ with ⟨e | _, s₂, w₂⟩
      · rw [hresult'] at hsave
        simp only [hresult']
        exact hsave.fail hread hversion _ _
      · rw [hresult'] at hsave
        simp only [hresult']
        have hexists := w₂.pathExists_frame options.path
        rcases hresult'' : w₂.pathExists options.path with ⟨e | outputExists, w₃⟩
        · rw [hresult''] at hexists
          exact (hsave.frame hexists (Set.notMem_empty _) (Set.notMem_empty _)).fail hread
            hversion _ _
        · rw [hresult''] at hexists
          have h₃ := hsave.frame hexists (Set.notMem_empty _) (Set.notMem_empty _)
          simp only
          split
          · exact h₃.fail hread hversion _ _
          · exact h₃

end FileTransferServer

namespace FileDownloadClient

variable {options : FileDownloadOptions} {content : Bytes} {s : DownloadSession} {w : World}

/-- What the checks leave: a failing one a transfer that can be resumed, and
otherwise the temp file has its size. -/
theorem checkReceived_underway (totalSize : Nat)
    (h : Underway downloadSessionFormat parseDownloadManifest options.path content s w) :
    (∀ e, (checkReceived options totalSize s w).1 = .error e →
      Resumable parseDownloadManifest (checkReceived options totalSize s w).2.1
        (checkReceived options totalSize s w).2.2) ∧
    ∀ u, (checkReceived options totalSize s w).1 = .ok u →
      Underway downloadSessionFormat parseDownloadManifest options.path
        (World.resized content totalSize) (checkReceived options totalSize s w).2.1
        (checkReceived options totalSize s w).2.2 := by
  have hread := download_readsBack
  have hframe := w.resize_frame s.manifest.tempPath totalSize
  rw [checkReceived]
  rcases hresult : w.resize s.manifest.tempPath totalSize with ⟨e | _, w₁⟩
  · rw [hresult] at hframe
    have hfiles := World.resize_error hresult
    have h₁ : Underway downloadSessionFormat parseDownloadManifest options.path content s w₁ :=
      h.rewrite hframe ((congrFun hfiles _).trans h.temp)
    exact ⟨fun _ _ => (h₁.fail hread versionSettles_download _ _).resumable,
      fun _ hok => (by cases hok)⟩
  · rw [hresult] at hframe
    have h₁ : Underway downloadSessionFormat parseDownloadManifest options.path
        (World.resized content totalSize) s w₁ :=
      h.rewrite hframe (World.resize_ok hresult h.temp)
    simp only
    split
    · exact ⟨fun _ _ => (h₁.fail hread versionSettles_download _ _).resumable,
        fun _ hok => (by cases hok)⟩
    · have h₂ := h₁.finalVerify hread versionSettles_download options.toCommitOptions
        (ascii "download temp preflight found missing chunks") totalSize
      exact ⟨fun _ _ => h₂.resumable, fun _ _ => h₂⟩

theorem freeOutput_underway
    (h : Underway downloadSessionFormat parseDownloadManifest options.path content s w) :
    Underway downloadSessionFormat parseDownloadManifest options.path content
      (freeOutput options s w).2.1 (freeOutput options s w).2.2 := by
  have hread := download_readsBack
  have hexists := w.pathExists_frame options.path
  rw [freeOutput]
  rcases hresult : w.pathExists options.path with ⟨e | outputExists, w₁⟩
  · rw [hresult] at hexists
    exact (h.frame hexists (Set.notMem_empty _) (Set.notMem_empty _)).fail hread
      versionSettles_download _ _
  · rw [hresult] at hexists
    have h₁ := h.frame hexists (Set.notMem_empty _) (Set.notMem_empty _)
    simp only
    split
    · exact h₁.fail hread versionSettles_download _ _
    · split
      · have hremove := w₁.removePath_frame options.path
        have htemp : s.manifest.tempPath ∉ ({options.path} : Set Path) := h.apart.output_temp.symm
        have hmanifest : s.manifestPath ∉ ({options.path} : Set Path) :=
          h.apart.output_manifest.symm
        rcases hresult' : w₁.removePath options.path with ⟨e | _, w₂⟩
        · rw [hresult'] at hremove
          exact (h₁.frame hremove htemp hmanifest).fail hread versionSettles_download _ _
        · rw [hresult'] at hremove
          exact h₁.frame hremove htemp hmanifest
      · exact h₁

end FileDownloadClient

/-! ### Both programs -/

/-! ### An empty file -/

/-- The parsed manifest of a file. -/
def parsedManifest {P : Type} (parse : Bytes → Except Status (Manifest P)) (w : World)
    (path : Path) : Option (Manifest P) :=
  (w.files path).bind fun text => (parse text).toOption

theorem onDisk_iff {P : Type} {parse : Bytes → Except Status (Manifest P)} {w : World}
    {path : Path} {Q : Manifest P → Prop} :
    OnDisk parse w path Q ↔ ∃ manifest, parsedManifest parse w path = some manifest ∧
      Q manifest := by
  constructor
  · rintro ⟨text, manifest, htext, hparse, hq⟩
    refine ⟨manifest, ?_, hq⟩
    rw [parsedManifest, htext]
    show (parse text).toOption = some manifest
    rw [hparse]
    rfl
  · rintro ⟨manifest, hmanifest, hq⟩
    rw [parsedManifest, Option.bind_eq_some_iff] at hmanifest
    obtain ⟨text, htext, hparse⟩ := hmanifest
    cases hresult : parse text with
    | error e =>
        rw [hresult] at hparse
        cases hparse
    | ok manifest' =>
        rw [hresult] at hparse
        obtain rfl := Option.some.inj hparse
        exact ⟨text, _, htext, hresult, hq⟩

/-- The state the manifest on disk gives. -/
theorem onDisk_state_iff {P : Type} {parse : Bytes → Except Status (Manifest P)} {w : World}
    {path : Path} {Q : ManifestState → Prop} :
    OnDisk parse w path (fun manifest => Q manifest.state) ↔
      ∃ state, (parsedManifest parse w path).map (·.state) = some state ∧ Q state := by
  rw [onDisk_iff]
  simp only [Option.map_eq_some_iff]
  constructor
  · rintro ⟨manifest, hmanifest, hq⟩
    exact ⟨_, ⟨manifest, hmanifest, rfl⟩, hq⟩
  · rintro ⟨_, ⟨manifest, hmanifest, rfl⟩, hq⟩
    exact ⟨manifest, hmanifest, hq⟩

/-- Uploads of an empty file whose output is synced. -/
def syncedFile : FileTransferOptions where
  path := ascii "o"
  checksumAlgorithm := .crc32c
  finalVerifyPolicy := .full
  commitSyncPolicy := .fsyncFile
  overwrite := false
  connections := 1
  bufferSize := 64
  transferId := []
  checksumBackend := .software
  manifestFlushPolicy := .finalOnly
  manifestFlushIntervalChunks := 1
  preallocateMode := .off
  fileIo := {}
  resume := false

def noFile : SessionInitPayload := ⟨.new, ascii "t", 0, 1, .crc32c, []⟩

/-- The receiver once the SessionInit of an empty file has been handled. -/
def noFileOpened : Except TransferError Unit × Option FileTransferServer.ActiveTransfer × World :=
  FileTransferServer.initializeSession syncedFile noFile none (.withFiles fun _ => none)

/-- The machine on which the next `n` calls succeed and the one after them
fails. -/
def World.failsAfter (n : Nat) (w : World) : World :=
  { w with outcomes := List.replicate n .success ++ [.failure 5 0] }

theorem Underway.failsAfter {P : Type} {format : SessionFormat P}
    {parse : Bytes → Except Status (Manifest P)} {output : Path} {content : Bytes} {s : Session P}
    {w : World} (h : Underway format parse output content s w) (n : Nat) :
    Underway format parse output content s (w.failsAfter n) :=
  ⟨h.sound, h.serializable, h.uncommitted, h.apart.congr rfl, h.temp, h.manifest.congr rfl⟩

instance {P : Type} (format : SessionFormat P) (s : Session P) :
    Decidable (s.Serializable format) :=
  inferInstanceAs (Decidable (_ = _))

theorem noFileOpened_underway :
    ∃ active, noFileOpened.2.1 = some active ∧
      Underway transferSessionFormat parseTransferManifest syncedFile.path [] active.session
        noFileOpened.2.2 := by
  have hsome : noFileOpened.2.1.isSome := by decide +kernel
  obtain ⟨active, hactive⟩ := Option.isSome_iff_exists.mp hsome
  have hopened : FileTransferServer.initializeSession syncedFile noFile none
      (.withFiles fun _ => none) = (noFileOpened.1, noFileOpened.2.1, noFileOpened.2.2) := rfl
  have hstep := FileTransferServer.initializeSession_step (S := ∅) hopened
  have hsound := hstep.sound (fun _ h => by cases h) active hactive
  obtain ⟨hardware, hsession⟩ := hsound.session
  have hvalues : noFileOpened.2.1.map (fun active => (active.session.manifest.tempPath,
      active.session.manifestPath, active.session.manifest.state)) =
        some (ascii "o.part.t", ascii "o.gridflux.manifest", .transferring) := by
    decide +kernel
  rw [hactive] at hvalues
  obtain ⟨htemp, hmanifest, hstate⟩ :
      active.session.manifest.tempPath = ascii "o.part.t" ∧
      active.session.manifestPath = ascii "o.gridflux.manifest" ∧
      active.session.manifest.state = .transferring := by
    simpa using hvalues
  refine ⟨active, hactive, ⟨_, _, hsession⟩, hsound.serializable, ?_, ?_, ?_, ?_⟩
  · rw [hstate]
    decide
  · rw [htemp, hmanifest]
    constructor <;> decide +kernel
  · rw [htemp]
    decide +kernel
  · rw [hmanifest]
    apply (onDisk_state_iff (Q := (· ≠ .committed))).mpr
    refine ⟨.transferring, ?_, by decide⟩
    decide +kernel

/-- Downloads of an empty file whose output is synced. -/
def syncedDownload : FileDownloadOptions :=
  { syncedFile with transferId := ascii "t" }

/-- The client once it has opened the session of an empty file. -/
def noFileFetched : FileDownloadClient.OpenResult :=
  FileDownloadClient.createSession syncedDownload
    (FileDownloadClient.sessionRequest syncedDownload noFile .software) (.withFiles fun _ => none)

theorem noFileFetched_underway :
    ∃ s, noFileFetched.2.1 = some s ∧
      Underway downloadSessionFormat parseDownloadManifest syncedDownload.path [] s
        noFileFetched.2.2 := by
  have hsome : noFileFetched.2.1.isSome := by decide +kernel
  obtain ⟨s, hs⟩ := Option.isSome_iff_exists.mp hsome
  have hfetched : FileDownloadClient.createSession syncedDownload
      (FileDownloadClient.sessionRequest syncedDownload noFile .software)
      (.withFiles fun _ => none) = (noFileFetched.1, some s, noFileFetched.2.2) := by
    rw [← hs]
    rfl
  have hsound := (FileDownloadClient.createSession_opened rfl hfetched).sound
  have hvalues : noFileFetched.2.1.map (fun s => (s.manifest.tempPath, s.manifestPath,
      s.manifest.state, decide (s.Serializable downloadSessionFormat))) =
        some (ascii "o.part.t", ascii "o.gridflux.download.manifest", .transferring, true) := by
    decide +kernel
  rw [hs] at hvalues
  obtain ⟨htemp, hmanifest, hstate, hserializable⟩ :
      s.manifest.tempPath = ascii "o.part.t" ∧
      s.manifestPath = ascii "o.gridflux.download.manifest" ∧
      s.manifest.state = .transferring ∧ s.Serializable downloadSessionFormat := by
    simpa using hvalues
  refine ⟨s, hs, ⟨_, _, hsound⟩, hserializable, ?_, ?_, ?_, ?_⟩
  · rw [hstate]
    decide
  · rw [htemp, hmanifest]
    constructor <;> decide +kernel
  · rw [htemp]
    decide +kernel
  · rw [hmanifest]
    apply (onDisk_state_iff (Q := (· ≠ .committed))).mpr
    refine ⟨.transferring, ?_, by decide⟩
    decide +kernel

/-! ### Both sides -/

/-- **A commit is atomic with respect to its failing steps** exactly if, once
the checks before it have passed, the rename cannot succeed without everything
that follows it; in the receiver and in the download client. -/
theorem commit_atomic (options : FileTransferOptions) (totalSize : Nat) (content : Bytes)
    (s : TransferSession) (w : World) (downloadOptions : FileDownloadOptions)
    (downloadSize : Nat) (downloadContent : Bytes) (d : DownloadSession) (v : World)
    (hs : Underway transferSessionFormat parseTransferManifest options.path content s w)
    (hd : Underway downloadSessionFormat parseDownloadManifest downloadOptions.path
      downloadContent d v) :
    (CommitAtomic parseTransferManifest options.path content
        (FileTransferServer.commit options totalSize s w) ↔
      ∀ s₁ w₁, FileTransferServer.checkReceived options totalSize s w = (.ok (), s₁, w₁) →
        RenameSealed options.toCommitOptions s₁ w₁) ∧
    (CommitAtomic parseDownloadManifest downloadOptions.path
        (World.resized downloadContent downloadSize)
        (FileDownloadClient.commit downloadOptions downloadSize d v) ↔
      ∀ d₁ v₁ d₂ v₂,
        FileDownloadClient.checkReceived downloadOptions downloadSize d v = (.ok (), d₁, v₁) →
        FileDownloadClient.freeOutput downloadOptions d₁ v₁ = (.ok (), d₂, v₂) →
        RenameSealed downloadOptions.toCommitOptions d₂ v₂) := by
  constructor
  · have hchecked := FileTransferServer.checkReceived_underway totalSize hs
    rw [FileTransferServer.commit]
    rcases hresult : FileTransferServer.checkReceived options totalSize s w with ⟨e | u, s₁, w₁⟩
    · rw [hresult] at hchecked
      apply iff_of_true
      · exact fun _ _ => Or.inl hchecked.resumable
      · intro _ _ h
        cases h
    · rw [hresult] at hchecked
      show CommitAtomic _ _ _ (publish transferSessionFormat options.toCommitOptions s₁ w₁) ↔ _
      rw [hchecked.publish_atomic_iff transfer_readsBack (fun _ => rfl)]
      constructor
      · rintro hsealed _ _ ⟨⟩
        exact hsealed
      · intro hsealed
        exact hsealed s₁ w₁ rfl
  · obtain ⟨herror, hok⟩ :=
      @FileDownloadClient.checkReceived_underway downloadOptions _ _ _ downloadSize hd
    rw [FileDownloadClient.commit]
    rcases hresult : FileDownloadClient.checkReceived downloadOptions downloadSize d v
      with ⟨e | u, d₁, v₁⟩
    · rw [hresult] at herror
      apply iff_of_true
      · exact fun _ _ => Or.inl (herror e rfl)
      · intro _ _ _ _ h
        cases h
    · rw [hresult] at hok
      have hfreed := FileDownloadClient.freeOutput_underway (hok u rfl)
      simp only
      rcases hresult' : FileDownloadClient.freeOutput downloadOptions d₁ v₁ with ⟨e | u', d₂, v₂⟩
      · rw [hresult'] at hfreed
        apply iff_of_true
        · exact fun _ _ => Or.inl hfreed.resumable
        · rintro _ _ _ _ ⟨⟩ h
          rw [hresult'] at h
          cases h
      · rw [hresult'] at hfreed
        show CommitAtomic _ _ _ (publish downloadSessionFormat downloadOptions.toCommitOptions
          d₂ v₂) ↔ _
        rw [hfreed.publish_atomic_iff download_readsBack versionSettles_download]
        constructor
        · rintro hsealed _ _ _ _ ⟨⟩ h
          rw [hresult'] at h
          cases h
          exact hsealed
        · intro hsealed
          exact hsealed d₁ v₁ d₂ v₂ rfl hresult'

/-- The theorem at the sessions of an empty file. -/
theorem commit_atomic_noFile : ∃ s w d v,
    (CommitAtomic parseTransferManifest syncedFile.path []
        (FileTransferServer.commit syncedFile 0 s w) ↔
      ∀ s₁ w₁, FileTransferServer.checkReceived syncedFile 0 s w = (.ok (), s₁, w₁) →
        RenameSealed syncedFile.toCommitOptions s₁ w₁) ∧
    (CommitAtomic parseDownloadManifest syncedDownload.path (World.resized [] 0)
        (FileDownloadClient.commit syncedDownload 0 d v) ↔
      ∀ d₁ v₁ d₂ v₂,
        FileDownloadClient.checkReceived syncedDownload 0 d v = (.ok (), d₁, v₁) →
        FileDownloadClient.freeOutput syncedDownload d₁ v₁ = (.ok (), d₂, v₂) →
        RenameSealed syncedDownload.toCommitOptions d₂ v₂) := by
  obtain ⟨active, -, hs⟩ := noFileOpened_underway
  obtain ⟨d, -, hd⟩ := noFileFetched_underway
  exact ⟨_, _, _, _, commit_atomic syncedFile 0 [] active.session noFileOpened.2.2
    syncedDownload 0 [] d noFileFetched.2.2 hs hd⟩

/-- What a commit leaves: its status, the temp file and the state the manifest
on disk gives. -/
def commitLeaves {P : Type} (parse : Bytes → Except Status (Manifest P)) (r : CommitResult P) :
    Option Unit × Option Bytes × Option ManifestState :=
  (r.1.toOption, r.2.2.files r.2.1.manifest.tempPath,
    (parsedManifest parse r.2.2 r.2.1.manifestPath).map (·.state))

theorem not_commitAtomic_of_leaves {P : Type} {parse : Bytes → Except Status (Manifest P)}
    {output : Path} {content : Bytes} {r : CommitResult P} {state : ManifestState}
    (h : commitLeaves parse r = (none, none, some state)) (hstate : state ≠ .committed) :
    ¬CommitAtomic parse output content r := by
  intro hatomic
  rcases r with ⟨e | _, s, w⟩
  · simp only [commitLeaves, Prod.mk.injEq] at h
    obtain ⟨-, htemp, hleft⟩ := h
    rcases hatomic e rfl with hresumable | hpublished
    · have hsome := hresumable.temp
      rw [htemp] at hsome
      cases hsome
    · obtain ⟨_, hsaved, rfl⟩ := (onDisk_state_iff (Q := (· = .committed))).mp hpublished.manifest
      exact hstate (Option.some.inj (hleft.symm.trans hsaved))
  · cases congrArg (·.1) h

/-- **The fsync after the rename fails**: the temp file has gone and the
manifest on disk says failed. -/
theorem commit_stranded : ∃ s w,
    Underway transferSessionFormat parseTransferManifest syncedFile.path [] s w ∧
      ¬CommitAtomic parseTransferManifest syncedFile.path []
        (FileTransferServer.commit syncedFile 0 s w) := by
  obtain ⟨active, hactive, hunderway⟩ := noFileOpened_underway
  have hleaves : noFileOpened.2.1.map (fun active => commitLeaves parseTransferManifest
      (FileTransferServer.commit syncedFile 0 active.session (noFileOpened.2.2.failsAfter 6))) =
        some (none, none, some .failed) := by
    decide +kernel
  rw [hactive] at hleaves
  refine ⟨active.session, noFileOpened.2.2.failsAfter 6, hunderway.failsAfter 6, ?_⟩
  exact not_commitAtomic_of_leaves (Option.some.inj hleaves) (by decide)

end GridFlux
