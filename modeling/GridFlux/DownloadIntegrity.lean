/-
GridFlux/DownloadIntegrity.lean

Downloads from arbitrary servers.

Whatever frames arrive on the streams and however the threads take turns, a
client that comes to the rename has records that are disjoint and cover the
whole file, and in the temp file bytes with the checksums that were recorded
(`received_intact`).  What is known in each phase of the client is `ClientOk`:
it holds when a client starts and is kept by every event.
-/
import GridFlux.DownloadTempFile

namespace GridFlux

open HalfOpen TextCodec Transition SharedFile

namespace FileDownloadClient

/-! ### The commit -/

/-- Everything has been received: nothing is missing, the temp file has its
size, and each recorded chunk holds what it was made of. -/
structure Received (contents : Set (Segment UInt8)) (s : DownloadSession) (content : Bytes) :
    Prop where
  missing : s.missingRanges = []
  length : content.length = s.manifest.totalSize
  stored : Covered (recordSegments contents s.records) (covered (recordRanges s.records)) content

theorem Received.mono {contents contents' : Set (Segment UInt8)} {s : DownloadSession}
    {content : Bytes} (h : Received contents s content) (hcontents : contents ⊆ contents') :
    Received contents' s content := by
  refine ⟨h.missing, h.length, fun x hx => ?_⟩
  obtain ⟨hlt, seg, hseg, heq⟩ := h.stored x hx
  exact ⟨hlt, seg, recordSegments_mono hcontents (List.Subset.refl _) hseg, heq⟩

section Commit

variable {options : FileDownloadOptions} {contents : Set (Segment UInt8)} {totalSize : Nat}
  {s s' : DownloadSession} {w w' : World} {content : Bytes}

/-- **When the checks pass**, everything has been received. -/
theorem checkReceived_ok (hs : SessionSound options s) (htotal : s.manifest.totalSize = totalSize)
    (hfile : w.files s.manifest.tempPath = some content)
    (hstored : Covered (recordSegments contents s.records) (covered (recordRanges s.records)) content)
    (h : checkReceived options totalSize s w = (.ok (), s', w')) :
    ∃ content', w'.files s'.manifest.tempPath = some content' ∧ Received contents s' content' := by
  rw [checkReceived] at h
  rcases hresize : w.resize s.manifest.tempPath totalSize with ⟨e | _, w₁⟩
  · simp [hresize, Session.fail] at h
  · simp only [hresize] at h
    split at h
    · simp [Session.fail] at h
    · rename_i hmissing
      have hquiet := finalVerify_quiet downloadSessionFormat options.toCommitOptions
        (ascii "download temp preflight found missing chunks") totalSize s w₁
      rw [h] at hquiet
      have hfile₁ := World.resize_ok hresize hfile
      refine ⟨World.resized content totalSize, ?_, finalVerify_missing (not_not.mp hmissing) h, ?_,
        ?_⟩
      · rw [hquiet.calls.tempPath, hs.sessionOf.temp_kept hquiet.calls]
        exact hfile₁
      · rw [World.length_resized, (hs.calls hquiet.calls).2, htotal]
      · -- the verification may only drop records
        obtain ⟨hardware, init, backend, hsound⟩ := hs
        apply hsound.ok.records.covered_subset hquiet.records_subset
        apply covered_resized hstored
        rintro x ⟨range, hrange, -, hlt⟩
        rw [← htotal]
        exact hlt.trans_le (hsound.ok.records.bounded range hrange).2

theorem freeOutput_quiet (options : FileDownloadOptions) (s : DownloadSession) (w : World) :
    Session.QuietCalls downloadSessionFormat {options.path} s w (freeOutput options s w).2.1
      (freeOutput options s w).2.2 := by
  have hfail : ∀ (v : World) (reply : FrameStatusCode) (status : Status),
      Session.QuietCalls downloadSessionFormat {options.path} s v
        (s.fail downloadSessionFormat reply status v).2.1
        (s.fail downloadSessionFormat reply status v).2.2 := by
    intro v reply status
    exact (s.fail_quiet downloadSessionFormat reply status v).mono (Set.empty_subset _)
  have hexists : Session.QuietCalls downloadSessionFormat {options.path} s w s _ :=
    .framed ((w.pathExists_frame options.path).mono (Set.empty_subset _))
  rw [freeOutput]
  rcases h : w.pathExists options.path with ⟨e | outputExists, w₁⟩
  · rw [h] at hexists
    exact hexists.trans (hfail w₁ _ _)
  · rw [h] at hexists
    simp only
    split
    · exact hexists.trans (hfail w₁ _ _)
    · split
      · have hremove : Session.QuietCalls downloadSessionFormat {options.path} s w₁ s _ :=
          .framed (w₁.removePath_frame options.path)
        rcases h₂ : w₁.removePath options.path with ⟨e | _, w₂⟩
        · rw [h₂] at hremove
          exact (hexists.trans hremove).trans (hfail w₂ _ _)
        · rw [h₂] at hremove
          exact hexists.trans hremove
      · exact hexists

/-- Making room changes nothing in the session. -/
theorem freeOutput_ok (h : freeOutput options s w = (.ok (), s', w')) : s' = s := by
  rw [freeOutput] at h
  rcases hexists : w.pathExists options.path with ⟨e | outputExists, w₁⟩
  · simp [hexists, Session.fail] at h
  · simp only [hexists] at h
    split at h
    · simp [Session.fail] at h
    · split at h
      · rcases hremove : w₁.removePath options.path with ⟨e | _, w₂⟩
        · simp [hremove, Session.fail] at h
        · simp only [hremove, Prod.mk.injEq] at h
          exact h.2.1.symm
      · exact (Prod.mk.inj (Prod.mk.inj h).2).1.symm

theorem renameTemp_quiet (options : FileDownloadOptions) (s : DownloadSession) (w : World) :
    Session.QuietCalls downloadSessionFormat {s.manifest.tempPath, options.path} s w
      (Client.renameTemp options s w).2.1 (Client.renameTemp options s w).2.2 := by
  have hrename : Session.QuietCalls downloadSessionFormat {s.manifest.tempPath, options.path} s w s
      _ := .framed (w.renamePath_frame s.manifest.tempPath options.path)
  rw [Client.renameTemp]
  rcases h : w.renamePath s.manifest.tempPath options.path with ⟨e | _, w₁⟩
  · rw [h] at hrename
    exact hrename.trans ((s.fail_quiet downloadSessionFormat _ _ w₁).mono (Set.empty_subset _))
  · rw [h] at hrename
    exact hrename

end Commit

/-! ### The threads have ended -/

namespace Client

/-- A thread that has ended is in no chunk. -/
theorem chunks_ended {c : Client} (h : c.tasks.all StreamTask.hasEnded = true) (i : Nat) :
    c.chunks i = none := by
  rw [chunks]
  cases htask : c.tasks[i]? with
  | none => rfl
  | some task =>
      have hended := List.all_eq_true.mp h task (List.mem_of_getElem? htask)
      cases task with
      | ended status => rfl
      | connect => cases hended
      | prepare streamId init => cases hended
      | answer streamId init missing => cases hended
      | receive stream => cases hended
      | write stream jobs complete => cases hended

end Client

/-! ### What is known in each phase -/

/-- What holds of a client and its machine. -/
structure ClientOk (path : Path) (contents : Set (Segment UInt8)) (gathered : Nat → Bytes)
    (c : Client) (w : World) : Prop where
  path : c.options.path = path
  crc : c.options.checksumAlgorithm = .crc32c
  sound : ∀ s, c.shared.session = some s → SessionSound c.options s
  streaming : c.phase = .streaming → ¬c.Failed → Streaming contents gathered c w
  received : c.phase = .checked ∨ c.phase = .freed → ∃ s content, c.shared.session = some s ∧
    w.files s.manifest.tempPath = some content ∧ Received contents s content

section Phases

variable {path : Path} {contents contents' : Set (Segment UInt8)} {gathered gathered' : Nat → Bytes}
  {run : DownloadRun} {c : Client} {w : World} {event : Event} {s : DownloadSession}

theorem ClientOk.mono (h : ClientOk path contents gathered c w) (hcontents : contents ⊆ contents') :
    ClientOk path contents' gathered c w := by
  refine ⟨h.path, h.crc, h.sound, fun hphase hfailed => (h.streaming hphase hfailed).mono hcontents,
    fun hphase => ?_⟩
  obtain ⟨s, content, hs, hfile, hreceived⟩ := h.received hphase
  exact ⟨s, content, hs, hfile, hreceived.mono hcontents⟩

/-- **A step of a thread.** -/
theorem ClientOk.thread (h : ClientOk path run.contents run.gathered c run.world)
    (hphase : c.phase = .streaming) (hevent : event ≠ .proceed) :
    ClientOk path (run.receive c event).contents (run.receive c event).gathered
      (c.step event run.world).1 (c.step event run.world).2 := by
  obtain ⟨hsession, hoptions, -, hsame⟩ := Client.step_thread hphase hevent run.world
  have hends := Client.step_ends (w := run.world) hphase hevent
  refine ⟨?_, ?_, ?_, fun _ hfailed => ?_, fun hlater => ?_⟩
  · rw [hoptions]
    exact h.path
  · rw [hoptions]
    exact h.crc
  · rw [hoptions]
    exact hsession.sound h.sound
  · have hnot : ¬c.Failed := fun hbad => hfailed (hends.failed_of hbad)
    exact (h.streaming hphase hnot).step h.crc h.sound hends hfailed
  · rw [hsame, hphase] at hlater
    rcases hlater with hlater | hlater
    · cases hlater
    · cases hlater

/-- The main thread goes on, or returns. -/
theorem ClientOk.conclude (h : ClientOk path contents gathered c w)
    (hs : c.shared.session = some s) {S : Set Path} {r : CommitResult DownloadPaths}
    (hcalls : Session.Calls downloadSessionFormat S s w r.2.1 r.2.2) {next : Phase}
    {afterRename : Bool} (hnext : r.1 = .ok () → next ≠ .streaming)
    (hreceived : r.1 = .ok () → next = .checked ∨ next = .freed → ∃ content,
      r.2.2.files r.2.1.manifest.tempPath = some content ∧ Received contents r.2.1 content) :
    ClientOk path contents gathered (c.conclude next afterRename r).1
      (c.conclude next afterRename r).2 := by
  have hsound := ((h.sound s hs).calls hcalls).1
  rcases r with ⟨e | _, s', w'⟩
  · refine ⟨h.path, h.crc, ?_, fun hphase => (by cases hphase), fun hphase => ?_⟩
    · rintro _ ⟨⟩
      exact hsound
    · rcases hphase with hphase | hphase
      · cases hphase
      · cases hphase
  · refine ⟨h.path, h.crc, ?_, fun hphase => absurd hphase (hnext rfl), fun hphase => ?_⟩
    · rintro _ ⟨⟩
      exact hsound
    · obtain ⟨content, hfile, hall⟩ := hreceived rfl hphase
      exact ⟨s', content, rfl, hfile, hall⟩

theorem ClientOk.giveUp (h : ClientOk path contents gathered c w) (e : Status) :
    ClientOk path contents gathered (c.giveUp e w).1 (c.giveUp e w).2 := by
  refine ⟨h.path, h.crc, h.sound, fun hphase => (by cases hphase), fun hphase => ?_⟩
  rcases hphase with hphase | hphase
  · cases hphase
  · cases hphase

/-- **The main thread, after all threads have ended.** -/
theorem ClientOk.join (h : ClientOk path contents gathered c w) (hphase : c.phase = .streaming)
    (hended : c.tasks.all StreamTask.hasEnded = true) :
    ClientOk path contents gathered (c.join w).1 (c.join w).2 := by
  rw [Client.join]
  split
  · rename_i e s hfailure hs
    split
    · refine h.conclude hs (s.fail_calls downloadSessionFormat .internalError e w) ?_ ?_
      · intro hok
        cases hok
      · intro hok
        cases hok
    · exact h.giveUp e
  · exact h.giveUp _
  · rename_i s hnone hs
    split
    · rename_i hready
      refine h.conclude hs (checkReceived_quiet c.options _ s w).calls (fun _ => by intro h; cases h)
        fun hok _ => ?_
      obtain ⟨s', content, hs', htotal, hfile, hfileOk⟩ :=
        (h.streaming hphase (Client.not_failed hnone)).file hready.2
      obtain rfl := Option.some.inj (hs.symm.trans hs')
      rcases hresult : checkReceived c.options c.shared.knownTotalSize.toNat s w
        with ⟨status, s', w'⟩
      rw [hresult] at hok
      obtain rfl : status = .ok () := hok
      exact checkReceived_ok (h.sound s hs) htotal hfile
        (hfileOk.covered (Client.chunks_ended hended)) hresult
    · exact h.giveUp _
  · exact h.giveUp _

/-- After the threads nothing is gathered any more. -/
theorem ClientOk.settled (h : ClientOk path contents gathered c w) (hphase : c.phase ≠ .streaming)
    (gathered' : Nat → Bytes) : ClientOk path contents gathered' c w :=
  ⟨h.path, h.crc, h.sound, fun hstreaming => absurd hstreaming hphase, h.received⟩

/-- The main thread, after the checks. -/
theorem ClientOk.proceed (h : ClientOk path contents gathered c w)
    (hphase : c.phase ≠ .streaming) :
    ClientOk path contents gathered (c.step .proceed w).1 (c.step .proceed w).2 := by
  unfold Client.step
  cases hp : c.phase with
  | streaming => exact absurd hp hphase
  | checked =>
      dsimp only
      cases hs : c.shared.session with
      | none => exact h
      | some s =>
          refine h.conclude hs (freeOutput_quiet c.options s w).calls (fun _ => by intro h; cases h)
            fun hok _ => ?_
          obtain ⟨s', content, hs', hfile, hreceived⟩ := h.received (Or.inl hp)
          obtain rfl := Option.some.inj (hs.symm.trans hs')
          have hframe := (freeOutput_quiet c.options s w).calls.frame
          rcases hresult : freeOutput c.options s w with ⟨status, s', w'⟩
          rw [hresult] at hok hframe
          obtain rfl : status = .ok () := hok
          obtain rfl := freeOutput_ok hresult
          -- the temp file is not the output
          have hof := (h.sound _ hs).sessionOf
          have hapart := download_filesApart w c.options.path c.options.transferId
          refine ⟨content, ?_, hreceived⟩
          rw [← hfile]
          apply hframe.files
          rw [Session.diskFiles, hof.manifest, hof.temp]
          rintro (heq | heq | heq)
          · exact hapart.output_temp heq.symm
          · exact hapart.temp_manifest heq
          · exact hapart.temp_manifestTemp heq
  | freed =>
      dsimp only
      cases hs : c.shared.session with
      | none => exact h
      | some s =>
          refine h.conclude hs (renameTemp_quiet c.options s w).calls (fun _ => by intro h; cases h)
            fun _ hlater => ?_
          rcases hlater with hlater | hlater
          · cases hlater
          · cases hlater
  | renamed =>
      dsimp only
      cases hs : c.shared.session with
      | none => exact h
      | some s =>
          refine h.conclude hs (sealOutput_calls downloadSessionFormat c.options.toCommitOptions s w)
            (fun _ => by intro h; cases h) fun _ hlater => ?_
          rcases hlater with hlater | hlater
          · cases hlater
          · cases hlater
  | returned status afterRename => exact h

/-- **One step.** -/
theorem ClientOk.step (h : ClientOk path run.contents run.gathered c run.world) (event : Event) :
    ClientOk path (run.receive c event).contents (run.receive c event).gathered
      (c.step event run.world).1 (c.step event run.world).2 := by
  have hcontents := run.subset_receive c event
  by_cases hphase : c.phase = .streaming
  · by_cases hevent : event = .proceed
    · subst hevent
      rw [Client.step_join hphase]
      split
      · rename_i hended
        exact (h.join hphase hended).mono hcontents
      · exact h.mono hcontents
    · exact h.thread hphase hevent
  · by_cases hevent : event = .proceed
    · subst hevent
      exact (h.proceed hphase).mono hcontents
    · rw [Client.step_settled hphase hevent]
      exact (h.settled hphase _).mono hcontents

theorem ClientOk.start {options : FileDownloadOptions} (hpath : options.path = path)
    (hcrc : options.checksumAlgorithm = .crc32c) (w : World) :
    ClientOk path contents gathered (.start options w) w := by
  obtain ⟨backend, phase, hstart, hphase⟩ := Client.start_eq options w
  rw [hstart]
  refine ⟨hpath, hcrc, fun s hs => (by cases hs), fun _ _ => ⟨fun i task htask => ?_, ?_⟩, ?_⟩
  · obtain rfl := List.eq_of_mem_replicate (List.mem_of_getElem? htask)
    trivial
  · intro hready
    cases hready
  · intro hlater
    have hlater' : phase = .checked ∨ phase = .freed := hlater
    rcases hphase with rfl | ⟨e, rfl⟩
    · rcases hlater' with h | h
      · cases h
      · cases h
    · rcases hlater' with h | h
      · cases h
      · cases h

end Phases

def DownloadRun.Ok (path : Path) (run : DownloadRun) : Prop :=
  ∀ c, run.client = some c → ClientOk path run.contents run.gathered c run.world

/-- **In every run.** -/
theorem DownloadRun.ok_of_reachable {path : Path} {run : DownloadRun}
    (h : (downloadAttempts path).Reachable run) : run.Ok path := by
  refine h.invariant ?_ ?_
  · rintro run ⟨hnone, -⟩ c hc
    rw [hnone] at hc
    cases hc
  · intro event run run' _ hok hstep
    cases event with
    | attempt options w =>
        obtain ⟨hpath, hcrc, -, rfl⟩ := hstep
        rintro _ ⟨⟩
        exact .start hpath hcrc w
    | received event =>
        obtain ⟨c, hc, rfl⟩ := hstep
        rintro _ ⟨⟩
        exact (hok c hc).step event

/-! ### At the rename -/

/-- What a client has when it comes to the rename: records that cut the file
into disjoint ranges, and a temp file in which every recorded chunk has the
checksum of its record. -/
structure Client.Downloaded (c : Client) (w : World) (s : DownloadSession) (content : Bytes) :
    Prop where
  session : c.shared.session = some s
  file : w.files s.manifest.tempPath = some content
  length : content.length = s.manifest.totalSize
  nonempty : ∀ record ∈ s.records, 0 < record.length
  separated : Separated (recordRanges s.records)
  covers : covered (recordRanges s.records) = Set.Ico 0 s.manifest.totalSize
  intact : ∀ record ∈ s.records, record.Intact content

/-- When everything has been received. -/
theorem ClientOk.downloaded {path : Path} {contents : Set (Segment UInt8)}
    {gathered : Nat → Bytes} {c : Client} {w : World} (h : ClientOk path contents gathered c w)
    (hcollision : NoCollision contents) (hphase : c.phase = .freed) :
    ∃ s content, c.Downloaded w s content := by
  obtain ⟨s, content, hs, hfile, hreceived⟩ := h.received (Or.inr hphase)
  obtain ⟨hardware, init, backend, hsound⟩ := h.sound s hs
  have hrecords := hsound.ok.records
  refine ⟨s, content, hs, hfile, hreceived.length, fun record hrecord => ?_, hrecords.separated, ?_,
    hrecords.intact hcollision hreceived.stored⟩
  · have hlt := (hrecords.bounded _ (List.mem_map_of_mem hrecord)).1
    exact Nat.lt_add_right_iff_pos.mp hlt
  · rw [← hsound.ok.derived.covered_eq]
    exact (RangeList.missingRanges_eq_nil_iff hsound.ok.derived.wellFormed).mp hreceived.missing

end FileDownloadClient

end GridFlux
