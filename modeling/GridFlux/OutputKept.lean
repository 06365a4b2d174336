/-
GridFlux/OutputKept.lean

What a download that fails does to the file it was to replace.

With `--overwrite` a new download unlinks the old output when it opens its
session, before a byte has been received; and it unlinks it once more right
before the rename.  A run in which neither unlink is followed by a failure
keeps the old output until the rename (`output_kept`).
-/
import GridFlux.CommitCalls
import GridFlux.DownloadRuns

namespace GridFlux

open HalfOpen TextCodec Transition

namespace FileDownloadClient

/-! ### Files of a client -/

/-- The paths of a session are those the options give. -/
structure SessionOf (options : FileDownloadOptions) (s : DownloadSession) : Prop where
  temp : s.manifest.tempPath = downloadTempPathForOutput options.path options.transferId
  manifest : s.manifestPath = downloadManifestPathForOutput options.path

section Files

variable {options : FileDownloadOptions} {s s' : DownloadSession} {w w' : World}

theorem SessionOf.calls {S : Set Path} (h : SessionOf options s)
    (hcalls : Session.Calls downloadSessionFormat S s w s' w') : SessionOf options s' :=
  ⟨hcalls.tempPath.trans h.temp, hcalls.manifestPath.trans h.manifest⟩

/-- What is done with the temp file and the session leaves the output alone. -/
theorem SessionOf.output (h : SessionOf options s)
    (hcalls : Session.Calls downloadSessionFormat {s.manifest.tempPath} s w s' w') :
    w'.files options.path = w.files options.path := by
  have hapart := download_filesApart w options.path options.transferId
  apply hcalls.frame.files
  simp [Session.diskFiles, h.temp, h.manifest, hapart.output_temp, hapart.output_manifest,
    hapart.output_manifestTemp]

theorem sessionOf_of_opened {init : SessionInitPayload} {backend : ChecksumBackend}
    (h : SessionOpened options (sessionRequest options init backend) w (some s) w') :
    SessionOf options s :=
  ⟨h.sound.opened.tempPath, h.sound.opened.manifestPath⟩

end Files

/-! ### Opening -/

/-- Opening a new session with `--overwrite` unlinks the old output. -/
def UnlinksOutput (options : FileDownloadOptions) (request : SessionRequest DownloadPaths)
    (w : World) : Prop :=
  options.resume = false ∧ options.overwrite = true ∧
    DownloadSession.validateInputs request = .ok () ∧ w.CallsSucceed 2 ∧
    w.isDirectory options.path = false

section Opening

variable {options : FileDownloadOptions} {request : SessionRequest DownloadPaths}
  {s : DownloadSession} {w v w' : World}

theorem checkOutputFree_overwrite (h : checkOutputFree options w = (.ok (), v))
    (hoverwrite : options.overwrite = true) : w.nextOutcome = .success ∧ v = w.afterCall := by
  rw [checkOutputFree, World.pathExists] at h
  cases hnext : w.nextOutcome with
  | failure e moved => simp [hnext] at h
  | success =>
      simp only [hnext, hoverwrite, not_true_eq_false, and_false, if_false, if_true,
        Prod.mk.injEq] at h
      exact ⟨rfl, h.2.symm⟩

theorem createNew_world (h : DownloadSession.createNew request v = (.ok s, w')) :
    w' = v.nowUnixNanos.2 := by
  rw [DownloadSession.createNew] at h
  cases hvalid : DownloadSession.validateInputs request with
  | error e => simp [hvalid] at h
  | ok _ =>
      cases hbackend : resolveChecksumBackend v.crc32cHardwareAvailable
          request.checksumAlgorithm request.checksumBackend with
      | error e => simp [hvalid, hbackend] at h
      | ok backend =>
          simp only [hvalid, hbackend, Prod.mk.injEq] at h
          exact h.2.symm

/-- An unlink that fails has removed nothing. -/
theorem removePath_kept (path : Path)
    (h : w.nextOutcome = .success → w.isDirectory path = true) :
    (w.removePath path).2.files = w.files := by
  rw [World.removePath]
  cases hnext : w.nextOutcome with
  | failure e moved => rfl
  | success =>
      simp only [h hnext, if_true]
      rfl

theorem removeOldFiles_output {tempPath : Path} (htemp : options.path ≠ tempPath)
    (hkept : options.overwrite = true → w.nextOutcome = .success →
      w.isDirectory options.path = true) :
    (removeOldFiles options tempPath w).files options.path = w.files options.path := by
  have hlast : ∀ v : World, (v.removePath tempPath).2.files options.path =
      v.files options.path :=
    fun v => (v.removePath_frame tempPath).files _ (by simpa using htemp)
  rw [removeOldFiles]
  cases hoverwrite : options.overwrite with
  | false => exact hlast w
  | true =>
      have hmanifest := ((w.removePath options.path).2.removePath_frame
        (downloadManifestPathForOutput options.path)).files options.path
        (by simpa using (download_filesApart w options.path []).output_manifest)
      have houtput := congrFun (removePath_kept options.path (hkept hoverwrite)) options.path
      exact (hlast _).trans (hmanifest.trans houtput)

/-- **A session that is opened without unlinking the output** leaves it alone. -/
theorem SessionOpened.output {init : SessionInitPayload} {backend : ChecksumBackend}
    {after : Option DownloadSession}
    (h : SessionOpened options (sessionRequest options init backend) w after w')
    (hkept : ¬UnlinksOutput options (sessionRequest options init backend) w) :
    w'.files options.path = w.files options.path := by
  cases h with
  | none h => exact h.files _ (Set.notMem_empty _)
  | @created s₀ s v w₀ _ hnew hcheck hcreate h =>
      have hopens : DownloadSession.Opens v.crc32cHardwareAvailable
          (sessionRequest options init backend) s₀ := ⟨v, w₀, rfl, Or.inl hcreate⟩
      have hof : SessionOf options s₀ :=
        ⟨hopens.sound.1.opened.tempPath, hopens.sound.1.opened.manifestPath⟩
      have hcheckFrame := checkOutputFree_frame options w
      rw [hcheck] at hcheckFrame
      have hw₀ := createNew_world hcreate
      rw [hof.output h.calls, removeOldFiles_output, hw₀]
      · exact hcheckFrame.files _ (Set.notMem_empty _)
      · rw [hof.temp]
        exact (download_filesApart w options.path options.transferId).output_temp
      · -- the unlink would be the second call to succeed
        intro hoverwrite hsecond
        obtain ⟨hfirst, rfl⟩ := checkOutputFree_overwrite hcheck hoverwrite
        rw [hw₀] at hsecond ⊢
        apply eq_true_of_ne_false
        intro hdirectory
        refine hkept ⟨hnew, hoverwrite, hopens.valid, ?_, hdirectory⟩
        rw [World.callsSucceed_succ, World.callsSucceed_succ]
        exact ⟨hfirst, hsecond, World.callsSucceed_zero _⟩
  | resumed hresume h =>
      have hopens : DownloadSession.Opens w.crc32cHardwareAvailable
          (sessionRequest options init backend) _ := ⟨w, _, rfl, Or.inr hresume⟩
      have hof : SessionOf options _ :=
        ⟨hopens.sound.1.opened.tempPath, hopens.sound.1.opened.manifestPath⟩
      rw [hof.output (h.calls.mono (Set.empty_subset _))]
      exact (DownloadSession.resume_frame hresume).files _ (Set.notMem_empty _)

end Opening

/-! ### Runs -/

/-- Every run of a client that finds a file at its output path. -/
def downloadRuns (options : FileDownloadOptions) (old : Bytes) :
    System (Client × World) Event where
  initial run := run.2.files options.path = some old ∧ run.1 = .start options run.2
  step event run run' := run' = run.1.step event run.2

/-- The condition on a step: it does not unlink the old output before the
transfer, and once the output has been unlinked for the rename, the rename
succeeds. -/
def KeepsOutput (event : Event) (run : Client × World) : Prop :=
  match run.1.phase, event with
  | .streaming, .advance index _ => ∀ streamId init,
      run.1.tasks[index]? = some (.prepare streamId init) → run.1.shared.sessionReady = false →
        ¬UnlinksOutput run.1.options (sessionRequest run.1.options init run.1.backend) run.2
  | .freed, .proceed => run.1.options.overwrite = true → ∀ s, run.1.shared.session = some s →
      run.2.CallsSucceed 1 ∧ (run.2.files s.manifest.tempPath).isSome ∧
        run.2.isDirectory run.1.options.path = false
  | _, _ => True

/-- The run has not renamed the temp file, nor made room for it. -/
def Phase.beforeRename : Phase → Bool
  | .streaming => true
  | .checked => true
  | .returned _ afterRename => !afterRename
  | _ => false

/-- What holds of the old output in a run. -/
structure OutputKept (options : FileDownloadOptions) (old : Bytes) (run : Client × World) :
    Prop where
  sameOptions : run.1.options = options
  session : ∀ s, run.1.shared.session = some s → SessionOf options s
  output : run.1.phase.beforeRename = true → run.2.files options.path = some old
  freed : run.1.phase = .freed → options.overwrite = true

section Runs

variable {options : FileDownloadOptions} {old : Bytes} {c : Client} {w : World} {event : Event}
  {s : DownloadSession}

theorem OutputKept.thread {r : Client × World} (h : OutputKept options old (c, w))
    (hphase : c.phase = .streaming) (hstep : c.ThreadStep event w r)
    (hkeeps : KeepsOutput event (c, w)) : OutputKept options old r := by
  have hfile : w.files options.path = some old := h.output (by rw [hphase]; rfl)
  obtain ⟨hsession, hoptions, -, hphase'⟩ := hstep
  rw [hphase] at hphase'
  have hkept : (∀ s, r.1.shared.session = some s → SessionOf options s) ∧
      r.2.files options.path = w.files options.path := by
    generalize r.1.shared.session = after at hsession
    generalize r.2 = w' at hsession
    have hold : c.options = options := h.sameOptions
    cases hsession with
    | idle hframe => exact ⟨h.session, hframe.files _ (Set.notMem_empty _)⟩
    | @opened index moved streamId init after w₁ _ hevent htask hready hopened hframe =>
        subst hevent
        simp only [KeepsOutput, hphase] at hkeeps
        have hunlinks := hkeeps streamId init htask hready
        rw [hold] at hopened hunlinks
        constructor
        · intro s hs
          cases after with
          | none => exact h.session s hs
          | some s₁ =>
              obtain rfl := Option.some.inj hs
              exact sessionOf_of_opened hopened
        · rw [hframe.files _ (Set.notMem_empty _), hopened.output hunlinks]
    | wrote hs hframe =>
        have hof := h.session _ hs
        exact ⟨fun s' hs' => Option.some.inj hs' ▸ hof, hof.output (.framed hframe)⟩
    | @recorded _ _ _ payload _ s _ _ _ _ _ hs _ hrecord hframe =>
        have hof := h.session s hs
        have hcalls : Session.Calls downloadSessionFormat {s.manifest.tempPath} s w _ _ :=
          (recordVerifiedChunk_calls hrecord).trans
            (.framed (hframe.mono (Set.empty_subset _)))
        exact ⟨fun s' hs' => Option.some.inj hs' ▸ hof.calls hcalls, hof.output hcalls⟩
  refine ⟨hoptions.trans h.sameOptions, hkept.1, fun _ => hkept.2.trans hfile, fun hfreed => ?_⟩
  rw [hphase'] at hfreed
  cases hfreed

/-- The main thread, as long as it touches the temp file and the session
only. -/
theorem OutputKept.conclude (h : OutputKept options old (c, w)) (hs : c.shared.session = some s)
    (hfile : w.files options.path = some old) {r : CommitResult DownloadPaths}
    (hcalls : Session.Calls downloadSessionFormat {s.manifest.tempPath} s w r.2.1 r.2.2)
    {next : Phase} (hnext : next ≠ .freed) :
    OutputKept options old (c.conclude next false r) := by
  have hof := h.session s hs
  have hfile' : r.2.2.files options.path = some old := (hof.output hcalls).trans hfile
  have hof' := hof.calls hcalls
  rcases r with ⟨e | _, s', w'⟩
  · exact ⟨h.sameOptions, fun _ hs' => Option.some.inj hs' ▸ hof', fun _ => hfile',
      fun hfreed => (by cases hfreed)⟩
  · exact ⟨h.sameOptions, fun _ hs' => Option.some.inj hs' ▸ hof', fun _ => hfile',
      fun hfreed => absurd hfreed hnext⟩

theorem checkReceived_quiet (options : FileDownloadOptions) (totalSize : Nat)
    (s : DownloadSession) (w : World) :
    Session.QuietCalls downloadSessionFormat {s.manifest.tempPath} s w
      (checkReceived options totalSize s w).2.1 (checkReceived options totalSize s w).2.2 := by
  have hresize : Session.QuietCalls downloadSessionFormat {s.manifest.tempPath} s w s _ :=
    .framed (w.resize_frame s.manifest.tempPath totalSize)
  rw [checkReceived]
  rcases h : w.resize s.manifest.tempPath totalSize with ⟨e | _, w₁⟩
  · rw [h] at hresize
    exact hresize.trans ((s.fail_quiet downloadSessionFormat _ _ w₁).mono (Set.empty_subset _))
  · rw [h] at hresize
    simp only
    split
    · exact hresize.trans ((s.fail_quiet downloadSessionFormat _ _ w₁).mono (Set.empty_subset _))
    · exact hresize.trans ((finalVerify_quiet downloadSessionFormat options.toCommitOptions _
        totalSize s w₁).mono (Set.empty_subset _))

theorem OutputKept.join (h : OutputKept options old (c, w)) (hphase : c.phase = .streaming) :
    OutputKept options old (c.join w) := by
  have hfile : w.files options.path = some old := h.output (by rw [hphase]; rfl)
  have hgiveUp : ∀ e, OutputKept options old (c.giveUp e w) := fun e =>
    ⟨h.sameOptions, h.session, fun _ => hfile, fun hfreed => (by cases hfreed)⟩
  rw [Client.join]
  split
  · rename_i e s _ hs
    split
    · exact h.conclude hs hfile ((s.fail_calls downloadSessionFormat _ _ w).mono
        (Set.empty_subset _)) (fun hnext => by cases hnext)
    · exact hgiveUp e
  · exact hgiveUp _
  · rename_i s _ hs
    split
    · exact h.conclude hs hfile (checkReceived_quiet c.options _ s w).calls
        (fun hnext => by cases hnext)
    · exact hgiveUp _
  · exact hgiveUp _

/-- Making room: either that fails and the output is still there, or it may be
replaced. -/
theorem freeOutput_output (hof : SessionOf options s) (hfile : w.files options.path = some old) :
    SessionOf options (freeOutput options s w).2.1 ∧
      ((freeOutput options s w).1 = .ok () → options.overwrite = true) ∧
      (∀ e, (freeOutput options s w).1 = .error e →
        (freeOutput options s w).2.2.files options.path = some old) := by
  have hfail : ∀ (v : World) (reply : FrameStatusCode) (status : Status),
      v.files options.path = some old →
      SessionOf options (s.fail downloadSessionFormat reply status v).2.1 ∧
        (s.fail downloadSessionFormat reply status v).2.2.files options.path = some old := by
    intro v reply status hv
    have hcalls := (s.fail_calls downloadSessionFormat reply status v).mono
      (Set.empty_subset {s.manifest.tempPath})
    exact ⟨hof.calls hcalls, (hof.output hcalls).trans hv⟩
  have hexists := w.pathExists_frame options.path
  obtain ⟨-, hfound⟩ := @World.pathExists_ok_iff w options.path
  rw [freeOutput]
  rcases h : w.pathExists options.path with ⟨e | outputExists, w₁⟩
  · rw [h] at hexists
    obtain ⟨hof', hfile'⟩ := hfail w₁ .internalError e
      ((hexists.files _ (Set.notMem_empty _)).trans hfile)
    exact ⟨hof', fun hok => (by cases hok), fun _ _ => hfile'⟩
  · rw [h] at hexists hfound
    have hfile₁ : w₁.files options.path = some old :=
      (hexists.files _ (Set.notMem_empty _)).trans hfile
    obtain rfl : outputExists = true := by rw [hfound _ rfl, hfile]; rfl
    simp only [true_and, if_true]
    split
    · obtain ⟨hof', hfile'⟩ := hfail w₁ .outputExists
        (.invalidArgument (ascii "output file already exists; use --overwrite")) hfile₁
      exact ⟨hof', fun hok => (by cases hok), fun _ _ => hfile'⟩
    · rename_i hoverwrite
      rw [Bool.not_eq_true, Bool.not_eq_false] at hoverwrite
      rcases hremove : w₁.removePath options.path with ⟨e | _, w₂⟩
      · -- a failing unlink
        have hkept : w₂.files options.path = some old := by
          have hfiles := removePath_kept (w := w₁) options.path fun hnext => by
            apply eq_true_of_ne_false
            intro hdirectory
            rw [World.removePath, hnext] at hremove
            simp [hdirectory] at hremove
          rw [hremove] at hfiles
          exact (congrFun hfiles _).trans hfile₁
        obtain ⟨hof', hfile'⟩ := hfail w₂ .internalError e hkept
        exact ⟨hof', fun hok => (by cases hok), fun _ _ => hfile'⟩
      · exact ⟨hof, fun _ => hoverwrite, fun _ he => (by cases he)⟩

/-- The main thread makes room for the output. -/
theorem OutputKept.free (h : OutputKept options old (c, w)) (hphase : c.phase = .checked)
    (hs : c.shared.session = some s) :
    OutputKept options old (c.conclude .freed false (freeOutput c.options s w)) := by
  have hfile : w.files options.path = some old := h.output (by rw [hphase]; rfl)
  have hoptions : c.options = options := h.sameOptions
  obtain ⟨hof, hok, herror⟩ := freeOutput_output (h.session s hs) hfile
  rw [hoptions]
  rcases hresult : freeOutput options s w with ⟨e | _, s', w'⟩
  · rw [hresult] at hof herror
    exact ⟨h.sameOptions, fun _ hs' => Option.some.inj hs' ▸ hof, fun _ => herror e rfl,
      fun hfreed => (by cases hfreed)⟩
  · rw [hresult] at hof hok
    exact ⟨h.sameOptions, fun _ hs' => Option.some.inj hs' ▸ hof,
      fun hbefore => (by cases hbefore), fun _ => hok rfl⟩

/-- The rename. -/
theorem OutputKept.rename (h : OutputKept options old (c, w)) (hphase : c.phase = .freed)
    (hs : c.shared.session = some s) (hkeeps : KeepsOutput .proceed (c, w)) :
    OutputKept options old (c.conclude .renamed false (Client.renameTemp c.options s w)) := by
  have hoptions : c.options = options := h.sameOptions
  simp only [KeepsOutput, hphase] at hkeeps
  have hrenames := hkeeps ((congrArg (·.overwrite) hoptions).trans (h.freed hphase)) s hs
  have hok := World.renamePath_ok_iff.1.mpr hrenames
  rw [Client.renameTemp]
  rcases hresult : w.renamePath s.manifest.tempPath c.options.path with ⟨e | _, w'⟩
  · rw [hresult] at hok
    cases hok
  · exact ⟨h.sameOptions, fun _ hs' => Option.some.inj hs' ▸ h.session s hs,
      fun hbefore => (by cases hbefore), fun hfreed => (by cases hfreed)⟩

/-- What follows the rename. -/
theorem OutputKept.seal (h : OutputKept options old (c, w)) (hs : c.shared.session = some s) :
    OutputKept options old (c.conclude (.returned (.ok ()) true) true
      (sealOutput downloadSessionFormat c.options.toCommitOptions s w)) := by
  have hof := (h.session s hs).calls (sealOutput_calls downloadSessionFormat
    c.options.toCommitOptions s w)
  rcases hresult : sealOutput downloadSessionFormat c.options.toCommitOptions s w
    with ⟨e | _, s', w'⟩
  · rw [hresult] at hof
    exact ⟨h.sameOptions, fun _ hs' => Option.some.inj hs' ▸ hof,
      fun hbefore => (by cases hbefore), fun hfreed => (by cases hfreed)⟩
  · rw [hresult] at hof
    exact ⟨h.sameOptions, fun _ hs' => Option.some.inj hs' ▸ hof,
      fun hbefore => (by cases hbefore), fun hfreed => (by cases hfreed)⟩

theorem OutputKept.proceed (h : OutputKept options old (c, w))
    (hkeeps : KeepsOutput .proceed (c, w)) : OutputKept options old (c.step .proceed w) := by
  cases hphase : c.phase with
  | streaming =>
      rw [Client.step_join hphase]
      split
      · exact h.join hphase
      · exact h
  | checked =>
      unfold Client.step
      rw [hphase]
      cases hs : c.shared.session with
      | none => exact h
      | some s => exact h.free hphase hs
  | freed =>
      unfold Client.step
      rw [hphase]
      cases hs : c.shared.session with
      | none => exact h
      | some s => exact h.rename hphase hs hkeeps
  | renamed =>
      unfold Client.step
      rw [hphase]
      cases hs : c.shared.session with
      | none => exact h
      | some s => exact h.seal hs
  | returned status afterRename =>
      unfold Client.step
      rw [hphase]
      exact h

/-- **One step** that meets the condition. -/
theorem OutputKept.step (h : OutputKept options old (c, w))
    (hkeeps : KeepsOutput event (c, w)) : OutputKept options old (c.step event w) := by
  by_cases hevent : event = .proceed
  · subst hevent
    exact h.proceed hkeeps
  · by_cases hphase : c.phase = .streaming
    · exact h.thread hphase (Client.step_thread hphase hevent w) hkeeps
    · rw [Client.step_settled hphase hevent]
      exact h

theorem OutputKept.start (hfile : w.files options.path = some old) :
    OutputKept options old (.start options w, w) := by
  obtain ⟨backend, phase, hstart, hphase⟩ := Client.start_eq options w
  rw [hstart]
  refine ⟨rfl, fun s hs => (by cases hs), fun _ => hfile, fun hfreed => ?_⟩
  have hfreed' : phase = .freed := hfreed
  rcases hphase with rfl | ⟨e, rfl⟩
  · cases hfreed'
  · cases hfreed'

end Runs

/-- **A failed download keeps the old output** in every run whose steps meet the
condition. -/
theorem output_kept (options : FileDownloadOptions) (old : Bytes) (run : Client × World)
    (h : ((downloadRuns options old).restrict KeepsOutput).Reachable run) (e : Status)
    (hphase : run.1.phase = .returned (.error e) false) :
    run.2.files options.path = some old := by
  have hkept : OutputKept options old run := by
    refine h.invariant ?_ ?_
    · rintro ⟨c, w⟩ ⟨hfile, hstart⟩
      obtain rfl : c = .start options w := hstart
      exact .start hfile
    · rintro event ⟨c, w⟩ run' - hkept ⟨hkeeps, rfl⟩
      exact hkept.step hkeeps
  exact hkept.output (by rw [hphase]; rfl)

/-! ### The download of one empty file -/

/-- `--overwrite`, one connection, no fsync. -/
def replacing : FileDownloadOptions where
  path := ascii "o"
  checksumAlgorithm := .crc32c
  finalVerifyPolicy := .verifiedChunks
  commitSyncPolicy := .none
  overwrite := true
  connections := 1
  bufferSize := 64
  transferId := ascii "t"
  checksumBackend := .software
  manifestFlushPolicy := .everyNChunks
  manifestFlushIntervalChunks := 1
  preallocateMode := .off
  fileIo := {}
  resume := false

/-- The machine before the run: an old output of three bytes. -/
def oldOutput : World := .withFiles fun path => if path = ascii "o" then some [1, 2, 3] else none

/-- A client and its machine after these events. -/
def Client.run (run : Client × World) (events : List Event) : Client × World :=
  events.foldl (fun run event => run.1.step event run.2) run

theorem downloadRuns_run {options : FileDownloadOptions} {old : Bytes} {run : Client × World}
    (h : (downloadRuns options old).Reachable run) (events : List Event) :
    (downloadRuns options old).Reachable (Client.run run events) := by
  induction events generalizing run with
  | nil => exact h
  | cons event events ih =>
      apply ih
      exact h.step (l := event) rfl

theorem keepsOutput_streaming {run : Client × World} {event : Event}
    (hphase : run.1.phase = .streaming) (hevent : ∀ index moved, event ≠ .advance index moved) :
    KeepsOutput event run := by
  unfold KeepsOutput
  split
  · exact absurd rfl (hevent _ _)
  · rename_i hfreed
    rw [hphase] at hfreed
    cases hfreed
  · trivial

/-- The connection breaks before the first frame. -/
theorem output_kept_connectionLost :
    (Client.run (.start replacing oldOutput, oldOutput)
      [.lost 0 (.runtimeError []), .proceed]).2.files (ascii "o") = some [1, 2, 3] := by
  have hstart : ((downloadRuns replacing [1, 2, 3]).restrict KeepsOutput).Reachable
      (.start replacing oldOutput, oldOutput) := .initial ⟨by decide +kernel, rfl⟩
  have hlost := hstart.step (l := .lost 0 (.runtimeError []))
    ⟨keepsOutput_streaming rfl (fun _ _ h => by cases h), rfl⟩
  have hdone := hlost.step (l := .proceed)
    ⟨keepsOutput_streaming rfl (fun _ _ h => by cases h), rfl⟩
  exact output_kept replacing [1, 2, 3] _ hdone (.runtimeError []) (by rfl)

/-- The frame of a SessionInit for an empty file. -/
def emptySessionInit : FrameHeader × Bytes :=
  let bytes := (encodeSessionInitPayload
    { transferId := ascii "t", chunkSize := 8 }).toOption.getD []
  ({ type := .sessionInit, payloadSize := UInt32.ofNat bytes.length }, bytes)

/-- **The connection breaks after the SessionInit**: the run fails before its
rename, and the old output is gone. -/
theorem output_lost_connectionLost :
    ∃ run, (downloadRuns replacing [1, 2, 3]).Reachable run ∧
      (∃ e, run.1.phase = .returned (.error e) false) ∧ run.2.files replacing.path = none := by
  have hstart : (downloadRuns replacing [1, 2, 3]).Reachable
      (.start replacing oldOutput, oldOutput) := .initial ⟨by decide +kernel, rfl⟩
  refine ⟨_, downloadRuns_run hstart
    [.frame 0 (encodeFrameHeader emptySessionInit.1) emptySessionInit.2, .advance 0 0,
      .advance 0 0, .lost 0 (.runtimeError []), .proceed], ⟨.runtimeError [], ?_⟩, ?_⟩
  · rfl
  · decide +kernel

end FileDownloadClient

end GridFlux
