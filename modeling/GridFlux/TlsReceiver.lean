/-
GridFlux/TlsReceiver.lean

The upload receiver over TLS, `runFileTransferServerOnListenerTls`, next to the
one over plain sockets.

The handlers of headers and payloads are the same code; the way from the last
FIN to the answer is written twice.  The TLS receiver accepts all connections
before it reads from any, does not look for missing ranges in its loop, and
tells its connections of one failure only: missing ranges.  Whatever else fails
after the last FIN, it returns without a frame (`failQuietly`).

So both receivers take the same decisions and leave the same session and files
(`Parted`), and send the same frames exactly as long as nothing fails but the
search for missing ranges (`AnswersAlike`).
-/
import GridFlux.CommitCalls
import GridFlux.ReceiverRuns

namespace GridFlux

open HalfOpen TextCodec Transition

namespace FileTransferServer

/-! ### The TLS receiver -/

namespace Tls

/-- `markFailedBestEffort(transfer); return status;` -/
def failQuietly (s : TransferSession) (status : Status) (w : World) :
    CommitResult TransferPaths :=
  (.error ⟨none, status⟩, (s.markFailed transferSessionFormat w).2)

def finalVerify (options : FileTransferOptions) (totalSize : Nat) (s : TransferSession)
    (w : World) : CommitResult TransferPaths :=
  if canUseCurrentSessionVerifiedChunksFinalVerify options.finalVerifyPolicy
      options.checksumAlgorithm totalSize s.bytesCompleted false s.stats.loadedVerifiedChunks
      s.stats.removedCorruptChunks then
    match s.save transferSessionFormat w with
    | (.error e, s, w) => failQuietly s e w
    | (.ok _, s, w) => (.ok (), s, w)
  else
    match s.verifyTempChunks transferSessionFormat s.manifest.tempPath w with
    | (.error e, s, w) => failQuietly s e w
    | (.ok _, s, w) =>
        if s.missingRanges ≠ [] then
          failQuietly s (.runtimeError (ascii "final verify found missing ranges")) w
        else (.ok (), s, w)

/-- From the last FIN to the rename. -/
def checkReceived (options : FileTransferOptions) (totalSize : Nat) (s : TransferSession)
    (w : World) : CommitResult TransferPaths :=
  if s.missingRanges ≠ [] then
    s.fail transferSessionFormat .missingRange
      (.runtimeError (ascii "transfer has missing ranges")) w
  else
    match finalVerify options totalSize s w with
    | (.error e, s, w) => (.error e, s, w)
    | (.ok _, s, w) =>
        match s.save transferSessionFormat w with
        | (.error e, s, w) => failQuietly s e w
        | (.ok _, s, w) =>
            match w.pathExists options.path with
            | (.error e, w) => failQuietly s e w
            | (.ok outputExists, w) =>
                if outputExists ∧ ¬options.overwrite then
                  failQuietly s
                    (.invalidArgument (ascii "output file already exists; use --overwrite")) w
                else (.ok (), s, w)

/-- The rename and what follows it. -/
def publish (options : FileTransferOptions) (s : TransferSession) (w : World) :
    CommitResult TransferPaths :=
  match w.renamePath s.manifest.tempPath options.path with
  | (.error e, w) => failQuietly s e w
  | (.ok _, w) =>
      match applyCommitSyncPolicy w options.path options.commitSyncPolicy with
      | (.error e, w) => failQuietly s e w
      | (.ok _, w) =>
          match s.markCommitted transferSessionFormat w with
          | (.error e, s, w) => (.error ⟨none, e⟩, s, w)
          | (.ok _, s, w) => (.ok (), s, w)

def verify (r : Receiver) (active : ActiveTransfer) (w : World) : Receiver × World :=
  match checkReceived r.options active.init.totalSize.toNat active.session w with
  | (result, s, w) =>
      let r := { r with transfer := { r.transfer with
        active := some { active with session := s } } }
      match result with
      | .error e => (r.finish e, w)
      | .ok _ => ({ r with phase := .verified }, w)

def rename (r : Receiver) (active : ActiveTransfer) (w : World) : Receiver × World :=
  match publish r.options active.session w with
  | (result, s, w) =>
      let r := { r with transfer := { r.transfer with
        active := some { active with session := s } } }
      match result with
      | .error e => (r.finish e, w)
      | .ok _ => ({ r with phase := .committed }, w)

/-- One event.  `readFromTlsConnection` hands headers and payloads to the same
handlers, and a failing read takes the same way out. -/
def step (r : Receiver) (event : Event) (w : World) : Receiver × World :=
  match r.phase with
  | .receiving =>
      match event with
      | .proceed =>
          match r.transfer.active with
          | none => (r, w)
          | some active =>
              if transferComplete r.transfer r.options.connections then verify r active w
              else (r, w)
      | event => r.receive event w
  | .verified =>
      match event, r.transfer.active with
      | .proceed, some active => rename r active w
      | _, _ => (r, w)
  | .committed =>
      match event with
      | .proceed => r.complete w
      | _ => (r, w)
  | .returned _ => (r, w)

end Tls

/-! ### A failure without its frame -/

/-- The same result, but no frame for a failure. -/
def quiet {P : Type} (r : CommitResult P) : CommitResult P :=
  (r.1.mapError fun e => { e with reply := none }, r.2)

theorem Tls.failQuietly_eq (s : TransferSession) (reply : FrameStatusCode) (status : Status)
    (w : World) : failQuietly s status w = quiet (s.fail transferSessionFormat reply status w) :=
  rfl

theorem Tls.finalVerify_eq (options : FileTransferOptions) (totalSize : Nat)
    (s : TransferSession) (w : World) :
    finalVerify options totalSize s w =
      quiet (GridFlux.finalVerify transferSessionFormat options.toCommitOptions
        (ascii "final verify found missing ranges") totalSize s w) := by
  rw [finalVerify, GridFlux.finalVerify]
  split
  · rcases s.save transferSessionFormat w with ⟨e | _, s', w'⟩
    · rfl
    · rfl
  · rcases s.verifyTempChunks transferSessionFormat s.manifest.tempPath w with ⟨e | _, s', w'⟩
    · rfl
    · simp only
      split
      · rfl
      · rfl

theorem Tls.publish_eq (options : FileTransferOptions) (s : TransferSession) (w : World) :
    publish options s w =
      quiet (GridFlux.publish transferSessionFormat options.toCommitOptions s w) := by
  rw [publish, GridFlux.publish]
  rcases w.renamePath s.manifest.tempPath options.path with ⟨e | _, w₁⟩
  · rfl
  · simp only [GridFlux.sealOutput]
    rcases applyCommitSyncPolicy w₁ options.path options.commitSyncPolicy with ⟨e | _, w₂⟩
    · rfl
    · simp only
      rcases s.markCommitted transferSessionFormat w₂ with ⟨e | _, s', w₃⟩
      · rfl
      · rfl

theorem Tls.checkReceived_eq (options : FileTransferOptions) (totalSize : Nat)
    (s : TransferSession) (w : World) :
    checkReceived options totalSize s w =
      if s.missingRanges ≠ [] then FileTransferServer.checkReceived options totalSize s w
      else quiet (FileTransferServer.checkReceived options totalSize s w) := by
  rw [checkReceived, FileTransferServer.checkReceived]
  by_cases hmissing : s.missingRanges ≠ []
  · simp only [if_pos hmissing]
  · simp only [if_neg hmissing, Tls.finalVerify_eq]
    rcases GridFlux.finalVerify transferSessionFormat options.toCommitOptions
      (ascii "final verify found missing ranges") totalSize s w with ⟨e | _, s₁, w₁⟩
    · rfl
    · simp only [quiet, Except.mapError]
      rcases s₁.save transferSessionFormat w₁ with ⟨e | _, s₂, w₂⟩
      · rfl
      · simp only
        rcases w₂.pathExists options.path with ⟨e | outputExists, w₃⟩
        · rfl
        · simp only
          split
          · rfl
          · rfl

/-! ### In step -/

/-- Two receivers in step: the same, or both have returned an error, which they
may have told their connections differently. -/
inductive InStep : Receiver → Receiver → Prop
  | same (r : Receiver) : InStep r r
  | parted (r : Receiver) (e e' : Status) (sent sent' : List SentFrame) :
      InStep
        { r with phase := .returned (.error e), transfer := { r.transfer with sent := sent } }
        { r with phase := .returned (.error e'), transfer := { r.transfer with sent := sent' } }

/-- Every failure of the commit over plain sockets has its frame. -/
def Answered {P : Type} (x : CommitResult P) : Prop := ∀ e, x.1 = .error e → e.reply.isSome

theorem answered_ok {P : Type} {u : Unit} {s : Session P} {w : World} :
    Answered (.ok u, s, w) := fun _ h => by cases h

theorem answered_error {P : Type} {reply : FrameStatusCode} {status : Status}
    {r : Session P × World} : Answered (.error ⟨some reply, status⟩, r) := fun _ h => by
  obtain rfl := Except.error.inj h
  rfl

theorem finalVerify_answered (options : CommitOptions) (missing : Bytes) (totalSize : Nat)
    (s : TransferSession) (w : World) :
    Answered (finalVerify transferSessionFormat options missing totalSize s w) := by
  rw [finalVerify]
  split
  · rcases s.save transferSessionFormat w with ⟨e | _, s', w'⟩
    · exact answered_error
    · exact answered_ok
  · rcases s.verifyTempChunks transferSessionFormat s.manifest.tempPath w with ⟨e | _, s', w'⟩
    · exact answered_error
    · simp only
      split
      · exact answered_error
      · exact answered_ok

theorem checkReceived_answered (options : FileTransferOptions) (totalSize : Nat)
    (s : TransferSession) (w : World) : Answered (checkReceived options totalSize s w) := by
  rw [checkReceived]
  split
  · exact answered_error
  · have hverify := finalVerify_answered options.toCommitOptions
      (ascii "final verify found missing ranges") totalSize s w
    rcases hresult : finalVerify transferSessionFormat options.toCommitOptions
      (ascii "final verify found missing ranges") totalSize s w with ⟨e | _, s₁, w₁⟩
    · rw [hresult] at hverify
      exact hverify
    · simp only
      rcases s₁.save transferSessionFormat w₁ with ⟨e | _, s₂, w₂⟩
      · exact answered_error
      · simp only
        rcases w₂.pathExists options.path with ⟨e | outputExists, w₃⟩
        · exact answered_error
        · simp only
          split
          · exact answered_error
          · exact answered_ok

theorem publish_answered (options : CommitOptions) (s : TransferSession) (w : World) :
    Answered (publish transferSessionFormat options s w) := by
  rw [publish]
  rcases w.renamePath s.manifest.tempPath options.path with ⟨e | _, w₁⟩
  · exact answered_error
  · simp only [sealOutput]
    rcases applyCommitSyncPolicy w₁ options.path options.commitSyncPolicy with ⟨e | _, w₂⟩
    · exact answered_error
    · simp only
      rcases s.markCommitted transferSessionFormat w₂ with ⟨e | _, s', w₃⟩
      · exact answered_error
      · exact answered_ok

/-- How a receiver goes on after a part of its commit. -/
def Receiver.conclude (r : Receiver) (active : ActiveTransfer) (next : Phase)
    (x : CommitResult TransferPaths) : Receiver × World :=
  match x with
  | (result, s, w) =>
      let r := { r with transfer := { r.transfer with
        active := some { active with session := s } } }
      match result with
      | .error e => (r.finish e, w)
      | .ok _ => ({ r with phase := next }, w)

theorem statusFrames_ne_nil {type : FrameType} {statusCode : FrameStatusCode} {totalSize : UInt64}
    {connections : Nat} (h : connections ≠ 0) :
    statusFrames type statusCode totalSize connections ≠ [] := by
  rw [statusFrames, ne_eq, List.map_eq_nil_iff, List.range_eq_nil]
  exact h

/-- A failure without its frame: the receivers stay in step, and a client sees
the difference. -/
theorem Receiver.conclude_quiet (r : Receiver) (active : ActiveTransfer) (next : Phase)
    {x : CommitResult TransferPaths} (hanswered : Answered x)
    (hconnections : r.connections ≠ []) :
    InStep (r.conclude active next x).1 (r.conclude active next (quiet x)).1 ∧
      (r.conclude active next (quiet x)).2 = (r.conclude active next x).2 ∧
      ((r.conclude active next (quiet x)).1.transfer.sent =
        (r.conclude active next x).1.transfer.sent ↔ x.1 = .ok ()) := by
  obtain ⟨⟨reply, status⟩ | u, s, w⟩ := x
  · obtain ⟨code, rfl⟩ := Option.isSome_iff_exists.mp (hanswered _ rfl)
    refine ⟨.parted _ _ _ _ _, rfl, ?_⟩
    constructor
    · intro hsent
      have hnil := List.self_eq_append_right.mp hsent
      exact absurd hnil (statusFrames_ne_nil fun h => hconnections (List.length_eq_zero_iff.mp h))
    · intro h
      cases h
  · exact ⟨.same _, rfl, fun _ => rfl, fun _ => rfl⟩

/-! ### When the answers are the same -/

/-- Everything between the last FIN and the rename succeeds: the final
verification, a save, and the test of the output path. -/
def CheckPasses (options : FileTransferOptions) (totalSize : Nat) (s : TransferSession)
    (w : World) : Prop :=
  s.VerifyPasses options.toCommitOptions totalSize w ∧
    (s.afterVerify options.toCommitOptions totalSize w).CallsSucceed (4 + 1) ∧
    s.ManifestWritable w ∧
    (options.overwrite = true ∨
      ((w.files options.path).isSome || w.isDirectory options.path) = false)

theorem versionSettles_transfer : VersionSettles transferSessionFormat := fun _ => rfl

/-- **When the checks before the rename succeed**, given that nothing is
missing. -/
theorem ActiveTransfer.Sound.checkReceived_ok_iff {options : FileTransferOptions}
    {active : ActiveTransfer} (h : active.Sound options) {totalSize : Nat} {w : World}
    (hmissing : active.session.missingRanges = []) :
    (checkReceived options totalSize active.session w).1 = .ok () ↔
      CheckPasses options totalSize active.session w := by
  obtain ⟨hardware, hsound⟩ := h.session
  have hserializable := h.serializable
  have hmanifestPath : active.session.manifestPath = manifestPathForOutput options.path :=
    hsound.opened.manifestPath
  have hapart := transfer_filesApart w options.path active.init.transferId
  obtain ⟨hverify, hcalls⟩ := hsound.ok.finalVerify_ok_iff hserializable hmissing
    options.toCommitOptions (ascii "final verify found missing ranges") totalSize w
  have hrun := finalVerify_calls transferSessionFormat options.toCommitOptions
    (ascii "final verify found missing ranges") totalSize active.session w
  rw [checkReceived, if_neg (not_not.mpr hmissing), CheckPasses, World.callsSucceed_add, ← hverify]
  rcases hresult : finalVerify transferSessionFormat options.toCommitOptions
    (ascii "final verify found missing ranges") totalSize active.session w with ⟨e | _, s₁, w₁⟩
  · simp
  · rw [hresult] at hcalls hrun
    have houtcomes := hcalls rfl
    have hserializable₁ : s₁.Serializable transferSessionFormat :=
      hrun.kept (fun s op w hs => hs.run versionSettles_transfer op w) hserializable
    have hsave := hserializable₁.save_ok_iff (w := w₁)
    have hframe := hrun.frame
    simp only [Set.empty_union] at hframe
    rw [World.CallsSucceed.congr houtcomes,
      Session.ManifestWritable.congr hrun.manifestPath hframe.isDirectory hframe.pid] at hsave
    have hsaveFrame := s₁.save_frame transferSessionFormat w₁
    simp only [true_and]
    rcases hresult' : s₁.save transferSessionFormat w₁ with ⟨e | _, s₂, w₂⟩
    · rw [hresult'] at hsave
      have hnot := mt hsave.mpr (by simp)
      constructor
      · intro h
        simp [Session.fail] at h
      · rintro ⟨⟨hfirst, -⟩, hwritable, -⟩
        exact absurd ⟨hfirst, hwritable⟩ hnot
    · rw [hresult'] at hsave hsaveFrame
      obtain ⟨hfirst, hwritable⟩ := hsave.mp rfl
      have hsaved := Session.save_ok_outcomes hresult'
      -- neither save has touched the output
      have hfound : ((w₂.files options.path).isSome || w₂.isDirectory options.path) =
          ((w.files options.path).isSome || w.isDirectory options.path) := by
        have hout₁ : options.path ∉ active.session.diskFiles w := by
          rw [Session.diskFiles, hmanifestPath]
          simp [hapart.output_manifest, hapart.output_manifestTemp]
        have hout₂ : options.path ∉ s₁.diskFiles w₁ := by
          rw [Session.diskFiles, World.manifestTempPath, hrun.manifestPath, hframe.pid]
          exact hout₁
        rw [hsaveFrame.files _ hout₂, hframe.files _ hout₁, hsaveFrame.isDirectory,
          hframe.isDirectory]
      obtain ⟨hexists, hvalue⟩ := @World.pathExists_ok_iff w₂ options.path
      rw [World.CallsSucceed.congr (hsaved.trans (World.afterCalls_congr houtcomes))] at hexists
      simp only [hfirst, hwritable, true_and]
      rcases hresult'' : w₂.pathExists options.path with ⟨e | outputExists, w₃⟩
      · rw [hresult''] at hexists
        have hnot := mt hexists.mpr (by simp)
        simp [Session.fail, hnot]
      · rw [hresult''] at hexists hvalue
        rw [← hfound, ← hvalue _ rfl]
        simp only [hexists.mp ⟨_, rfl⟩, true_and]
        cases outputExists with
        | false => simp
        | true =>
            cases options.overwrite with
            | false => simp [Session.fail]
            | true => simp

/-- The condition on an event under which both receivers send the same frames:
if it takes the commit a step further, nothing in that step fails but the search
for missing ranges. -/
def AnswersAlike (event : Event) (r : Receiver) (w : World) : Prop :=
  event = .proceed → ∀ active, r.transfer.active = some active →
    match r.phase with
    | .receiving =>
        transferComplete r.transfer r.options.connections → active.session.missingRanges = [] →
          CheckPasses r.options active.init.totalSize.toNat active.session w
    | .verified => PublishPasses r.options.toCommitOptions active.session w
    | .committed => True
    | .returned _ => True

/-! ### One step -/

/-- Two receivers after the same event. -/
structure StepsAlike (p t : Receiver × World) (alike : Prop) : Prop where
  inStep : InStep p.1 t.1
  world : t.2 = p.2
  sent_iff : t.1.transfer.sent = p.1.transfer.sent ↔ alike

theorem StepsAlike.of_eq {p t : Receiver × World} {alike : Prop} (h : t = p) (halike : alike) :
    StepsAlike p t alike := by
  subst h
  exact ⟨.same _, rfl, fun _ => halike, fun _ => rfl⟩

theorem StepsAlike.congr {p t : Receiver × World} {alike alike' : Prop}
    (h : StepsAlike p t alike) (hiff : alike ↔ alike') : StepsAlike p t alike' :=
  ⟨h.inStep, h.world, h.sent_iff.trans hiff⟩

theorem Receiver.verify_stepsAlike {options : FileTransferOptions} {r : Receiver}
    (h : r.Invariant options) {active : ActiveTransfer} (hactive : r.transfer.active = some active)
    (w : World) :
    StepsAlike (r.verify active w) (Tls.verify r active w)
      (active.session.missingRanges = [] →
        CheckPasses r.options active.init.totalSize.toNat active.session w) := by
  have hconnections : r.connections ≠ [] := h.connected (by rw [hactive]; exact fun h => by cases h)
  have hplain : r.verify active w = r.conclude active .verified
      (checkReceived r.options active.init.totalSize.toNat active.session w) := rfl
  have htls : Tls.verify r active w = r.conclude active .verified
      (Tls.checkReceived r.options active.init.totalSize.toNat active.session w) := rfl
  rw [hplain, htls, Tls.checkReceived_eq]
  by_cases hmissing : active.session.missingRanges = []
  · have hsound := h.sound active hactive
    rw [← h.sameOptions] at hsound
    rw [if_neg (not_not.mpr hmissing), ← hsound.checkReceived_ok_iff hmissing]
    obtain ⟨hstep, hworld, hsent⟩ := r.conclude_quiet active .verified
      (checkReceived_answered r.options active.init.totalSize.toNat active.session w) hconnections
    exact ⟨hstep, hworld, hsent.trans ⟨fun h _ => h, fun h => h hmissing⟩⟩
  · rw [if_pos hmissing]
    exact .of_eq rfl fun hnil => absurd hnil hmissing

theorem Receiver.rename_stepsAlike {options : FileTransferOptions} {r : Receiver}
    (h : r.Invariant options) {active : ActiveTransfer} (hactive : r.transfer.active = some active)
    (w : World) :
    StepsAlike (r.rename active w) (Tls.rename r active w)
      (PublishPasses r.options.toCommitOptions active.session w) := by
  have hconnections : r.connections ≠ [] := h.connected (by rw [hactive]; exact fun h => by cases h)
  have hplain : r.rename active w = r.conclude active .committed
      (publish transferSessionFormat r.options.toCommitOptions active.session w) := rfl
  have htls : Tls.rename r active w = r.conclude active .committed
      (Tls.publish r.options active.session w) := rfl
  rw [hplain, htls, Tls.publish_eq, ← (h.sound active hactive).serializable.publish_ok_iff]
  obtain ⟨hstep, hworld, hsent⟩ := r.conclude_quiet active .committed
    (publish_answered r.options.toCommitOptions active.session w) hconnections
  exact ⟨hstep, hworld, hsent⟩

/-- The loop of the plain receiver reports missing ranges in other words. -/
theorem Receiver.finishedWithMissing_stepsAlike {r : Receiver} {active : ActiveTransfer}
    (hmissing : active.session.missingRanges ≠ []) (w : World) {alike : Prop} (halike : alike) :
    StepsAlike (r.finishedWithMissing active w) (Tls.verify r active w) alike := by
  have htls : Tls.verify r active w = r.conclude active .verified
      (Tls.checkReceived r.options active.init.totalSize.toNat active.session w) := rfl
  rw [htls, Tls.checkReceived, if_pos hmissing]
  exact ⟨.parted _ _ _ _ _, rfl, fun _ => halike, fun _ => rfl⟩

/-- **The same event, in the same state**: the receivers stay in step, and send
the same frames exactly under the condition. -/
theorem Receiver.step_stepsAlike {options : FileTransferOptions} {r : Receiver}
    (h : r.Invariant options) (event : Event) (w : World) :
    StepsAlike (r.step event w) (Tls.step r event w) (AnswersAlike event r w) := by
  rw [AnswersAlike]
  unfold step Tls.step
  cases r.phase with
  | receiving =>
      cases event with
      | proceed =>
          simp only [receive]
          cases hactive : r.transfer.active with
          | none => exact .of_eq rfl fun _ active h => by cases h
          | some active =>
              simp only
              by_cases hcomplete : transferComplete r.transfer r.options.connections
              · rw [if_pos hcomplete, if_pos hcomplete]
                by_cases hloop : ¬r.connections.length < r.options.connections ∧
                    active.session.missingRanges ≠ []
                · rw [if_pos hloop]
                  refine finishedWithMissing_stepsAlike hloop.2 w fun _ a ha _ hnil => ?_
                  obtain rfl := Option.some.inj ha
                  exact absurd hnil hloop.2
                · rw [if_neg hloop]
                  exact (verify_stepsAlike h hactive w).congr (by simp [hcomplete])
              · rw [if_neg hcomplete, if_neg hcomplete]
                exact .of_eq rfl fun _ a _ h => absurd h hcomplete
      | accepted => exact .of_eq rfl fun h => by cases h
      | header index encoded => exact .of_eq rfl fun h => by cases h
      | payload index bytes => exact .of_eq rfl fun h => by cases h
      | lost status => exact .of_eq rfl fun h => by cases h
  | verified =>
      cases event with
      | proceed =>
          cases hactive : r.transfer.active with
          | none => exact .of_eq rfl fun _ active h => by cases h
          | some active =>
              exact (rename_stepsAlike h hactive w).congr (by simp)
      | accepted => exact .of_eq rfl fun h => by cases h
      | header index encoded => exact .of_eq rfl fun h => by cases h
      | payload index bytes => exact .of_eq rfl fun h => by cases h
      | lost status => exact .of_eq rfl fun h => by cases h
  | committed =>
      cases event with
      | proceed => exact .of_eq rfl fun _ _ _ => trivial
      | accepted => exact .of_eq rfl fun h => by cases h
      | header index encoded => exact .of_eq rfl fun h => by cases h
      | payload index bytes => exact .of_eq rfl fun h => by cases h
      | lost status => exact .of_eq rfl fun h => by cases h
  | returned status => exact .of_eq rfl fun _ _ _ => trivial

/-! ### Whole runs -/

/-- The same receiver once it has accepted all its connections. -/
def Receiver.acceptAll (r : Receiver) : Receiver :=
  { r with connections := List.replicate r.options.connections (.new r.options) }

theorem Receiver.iterate_accepted {n : Nat} {r : Receiver} {w : World}
    (hphase : r.phase = .receiving) (hroom : r.connections.length + n ≤ r.options.connections) :
    (fun st : Receiver × World => st.1.step .accepted st.2)^[n] (r, w) =
      ({ r with connections := r.connections ++ List.replicate n (.new r.options) }, w) := by
  induction n generalizing r with
  | zero => simp
  | succ n ih =>
      have hstep : r.step .accepted w =
          ({ r with connections := r.connections ++ [.new r.options] }, w) := by
        unfold step
        simp only [hphase, receive]
        exact if_pos (by omega)
      have hrest := @ih { r with connections := r.connections ++ [.new r.options] } hphase
        (by simp only [List.length_append, List.length_singleton]; omega)
      rw [Function.iterate_succ_apply, hstep, hrest]
      simp [List.replicate_succ]

/-- The plain receiver gets there by accepting them one after the other. -/
theorem Receiver.acceptAll_eq {options : FileTransferOptions} {r : Receiver} {w w' : World}
    (h : start options w = (.ok r, w')) :
    (fun st : Receiver × World => st.1.step .accepted st.2)^[options.connections] (r, w') =
      (r.acceptAll, w') := by
  obtain ⟨rfl, -⟩ := start_ok h
  rw [iterate_accepted rfl (by simp), acceptAll]
  rfl

/-- The two receivers, each with its world. -/
structure Receivers where
  plain : Receiver
  tls : Receiver
  plainWorld : World
  tlsWorld : World

/-- An event for both receivers.  Before it others may change the files, and the
calls to come may end in any way, but in the same way for both. -/
def Receivers.step (st : Receivers) (l : Event × (World → World)) : Receivers :=
  ⟨(st.plain.step l.1 (l.2 st.plainWorld)).1, (Tls.step st.tls l.1 (l.2 st.tlsWorld)).1,
    (st.plain.step l.1 (l.2 st.plainWorld)).2, (Tls.step st.tls l.1 (l.2 st.tlsWorld)).2⟩

/-- Both receivers take the same events from the moment they have accepted all
connections. -/
def bothReceivers (options : FileTransferOptions) :
    System Receivers (Event × (World → World)) where
  initial st := ∃ r w w', Receiver.start options w = (.ok r, w') ∧
    st = ⟨r.acceptAll, r.acceptAll, w', w'⟩
  step l st st' := st' = st.step l

/-- The same decision: going on at the same point, or returned with success, or
returned with an error. -/
def Phase.SameDecision : Phase → Phase → Prop
  | .returned (.error _), .returned (.error _) => True
  | phase, phase' => phase = phase'

/-- The receivers have taken the same decisions, and have left the same session
and the same files. -/
structure Receivers.SameOutcome (st : Receivers) : Prop where
  decision : st.plain.phase.SameDecision st.tls.phase
  session : st.tls.transfer.active = st.plain.transfer.active
  connections : st.tls.connections = st.plain.connections
  world : st.tlsWorld = st.plainWorld

/-- What holds along a run of both receivers. -/
structure Receivers.Coupled (options : FileTransferOptions) (st : Receivers) : Prop where
  inStep : InStep st.plain st.tls
  world : st.tlsWorld = st.plainWorld
  invariant : st.plain.Invariant options

theorem Receivers.Coupled.sameOutcome {options : FileTransferOptions} {st : Receivers}
    (h : st.Coupled options) : st.SameOutcome := by
  obtain ⟨plain, tls, plainWorld, tlsWorld⟩ := st
  obtain ⟨hstep, hworld, -⟩ := h
  cases hstep with
  | same =>
      refine ⟨?_, rfl, rfl, hworld⟩
      cases plain.phase with
      | returned status =>
          cases status with
          | error e => trivial
          | ok _ => exact rfl
      | receiving => exact rfl
      | verified => exact rfl
      | committed => exact rfl
  | parted r e e' sent sent' => exact ⟨trivial, rfl, rfl, hworld⟩

/-- One event, with its condition, for two receivers in step. -/
theorem Receivers.Coupled.step {options : FileTransferOptions} {l : Event × (World → World)}
    {st st' : Receivers} (h : st.Coupled options) (hstep : (bothReceivers options).step l st st') :
    st'.Coupled options ∧ (st.tls.transfer.sent = st.plain.transfer.sent →
      (st'.tls.transfer.sent = st'.plain.transfer.sent ↔
        AnswersAlike l.1 st.plain (l.2 st.plainWorld))) := by
  obtain ⟨plain, tls, plainWorld, tlsWorld⟩ := st
  obtain ⟨hinStep, hworld, hinvariant⟩ := h
  obtain rfl : tlsWorld = plainWorld := hworld
  obtain rfl := hstep
  cases hinStep with
  | same =>
      obtain ⟨hinStep, hworld, hsent⟩ := plain.step_stepsAlike hinvariant l.1 (l.2 tlsWorld)
      exact ⟨⟨hinStep, hworld, hinvariant.step l.1 (l.2 tlsWorld)⟩, fun _ => hsent⟩
  | parted r e e' sent sent' =>
      -- both have returned
      exact ⟨⟨.parted r e e' sent sent', rfl, hinvariant⟩,
        fun hsame => ⟨fun _ _ _ _ => trivial, fun _ => hsame⟩⟩

theorem Receivers.coupled_of_reachable {options : FileTransferOptions} {st : Receivers}
    (h : (bothReceivers options).Reachable st) : st.Coupled options := by
  apply h.invariant
  · rintro st ⟨r, w, w', hstart, rfl⟩
    have hinvariant := Receiver.Invariant.start hstart
    obtain ⟨rfl, -⟩ := Receiver.start_ok hstart
    exact ⟨.same _, rfl, rfl, hinvariant.sound, fun hactive => absurd rfl hactive⟩
  · intro l st st' _ hcoupled hstep
    exact (hcoupled.step hstep).1

/-- **The two receivers agree**, on everything but the frames of their failures:
in every run they take the same decisions and leave the same session and files,
and they send the same frames as long as nothing fails in the commit but the
search for missing ranges; at the first other failure the frames differ. -/
theorem tls_agrees (options : FileTransferOptions) :
    (∀ st, (bothReceivers options).Reachable st → st.SameOutcome) ∧
    (∀ st, ((bothReceivers options).restrict fun l st =>
        AnswersAlike l.1 st.plain (l.2 st.plainWorld)).Reachable st →
      st.tls.transfer.sent = st.plain.transfer.sent) ∧
    (∀ l st st', (bothReceivers options).Reachable st →
      st.tls.transfer.sent = st.plain.transfer.sent → (bothReceivers options).step l st st' →
      (st'.tls.transfer.sent = st'.plain.transfer.sent ↔
        AnswersAlike l.1 st.plain (l.2 st.plainWorld))) := by
  refine ⟨fun st h => (Receivers.coupled_of_reachable h).sameOutcome, fun st h => ?_,
    fun l st st' h hsame hstep => ((Receivers.coupled_of_reachable h).step hstep).2 hsame⟩
  apply h.invariant
  · rintro st ⟨r, w, w', -, rfl⟩
    rfl
  · intro l st st' hreachable hsame hstep
    exact (((Receivers.coupled_of_reachable hreachable.of_restrict).step hstep.2).2 hsame).mpr
      hstep.1

/-! ### A failure the TLS receiver keeps to itself -/

/-- A receiver of an empty file on one connection. -/
def emptyFile : FileTransferOptions where
  path := ascii "o"
  checksumAlgorithm := .crc32c
  finalVerifyPolicy := .full
  commitSyncPolicy := .none
  overwrite := false
  connections := 1
  bufferSize := 64
  transferId := []
  checksumBackend := .software
  manifestFlushPolicy := .finalOnly
  manifestFlushIntervalChunks := 1
  preallocateMode := .off
  fileIo := {}
  resume := false

/-- The client announces an empty file and ends; meanwhile somebody else has
made a file of that name. -/
def outputAppears : List (Event × (World → World)) :=
  match encodeSessionInitPayload ⟨.new, ascii "t", 0, 1, .crc32c, []⟩ with
  | .error _ => []
  | .ok payload =>
      [(.header 0 (encodeFrameHeader
          { type := .sessionInit, payloadSize := UInt32.ofNat payload.length }), id),
        (.payload 0 payload, id),
        (.header 0 (encodeFrameHeader { type := .fin }), id),
        (.proceed, fun w => w.setFile (ascii "o") (some []))]

/-- Both receivers after these events. -/
def Receivers.run (st : Receivers) (events : List (Event × (World → World))) : Receivers :=
  events.foldl Receivers.step st

theorem Receivers.reachable_run {options : FileTransferOptions} {st : Receivers}
    (h : (bothReceivers options).Reachable st) (events : List (Event × (World → World))) :
    (bothReceivers options).Reachable (st.run events) := by
  induction events generalizing st with
  | nil => exact h
  | cons l events ih =>
      apply ih
      exact h.step (l := l) rfl

/-- The receivers of the empty file before the first frame. -/
def emptyFileStart : Receivers :=
  let r : Receiver := ⟨emptyFile, .receiving, [.new emptyFile], ⟨none, 0, [false], []⟩⟩
  ⟨r, r, .withFiles fun _ => none, .withFiles fun _ => none⟩

/-- **The output exists at the commit**: the client of the plain receiver is
told so, the client of the TLS receiver gets no final frame. -/
theorem tls_silent_on_outputExists :
    ∃ st, (bothReceivers emptyFile).Reachable st ∧
      st.plain.transfer.sent = st.tls.transfer.sent ++
        [⟨0, { type := .error, statusCode := .outputExists }, []⟩] ∧
      ∀ frame ∈ st.tls.transfer.sent, frame.header.type = .resumeResponse := by
  have hstart : (bothReceivers emptyFile).initial emptyFileStart :=
    ⟨⟨emptyFile, .receiving, [], ⟨none, 0, [false], []⟩⟩, .withFiles fun _ => none,
      .withFiles fun _ => none, rfl, rfl⟩
  refine ⟨_, Receivers.reachable_run (.initial hstart) outputAppears, ?_, ?_⟩
  · decide +kernel
  · decide +kernel

end FileTransferServer

end GridFlux
