/-
GridFlux/HonestDownload.lean

A client that is served one source.

When every frame that arrives serves the source (`Serves`), what a thread has
received of a chunk is a stretch of it, so every record has the checksum of the
source, in memory and in the manifest file, and this whether or not some thread
has failed (`HonestClient`).  At the rename the temp file is then the source
(`ClientOk.temp_source`), and so is the output after it (`renamed_source`).
-/
import GridFlux.DownloadIntegrity
import GridFlux.DownloadSender
import GridFlux.ManifestRecords

namespace GridFlux

open HalfOpen TextCodec Transition SharedFile

/-- The record has the checksum of the source. -/
def SourceRecord (source : Bytes) (_ _ : Nat) (record : ChunkChecksumRecord) : Prop :=
  record.checksum = checksumOf .crc32c (World.slice source record.offset record.length)

/-- The stretches of a source. -/
def sourceSegments (source : Bytes) : Set (Segment UInt8) :=
  { seg | seg.end ≤ source.length ∧ seg.data = World.slice source seg.offset seg.data.length }

/-- Removing a file changes no manifest, or removes it. -/
theorem DiskSays.removePath {P : Type} {parse : Bytes → Except Status (Manifest P)} {path : Path}
    {Q : Manifest P → Prop} {w : World} (h : DiskSays parse w path Q) (removed : Path) :
    DiskSays parse (w.removePath removed).2 path Q := by
  rw [World.removePath]
  cases w.nextOutcome with
  | failure e moved => exact h.congr rfl
  | success =>
      dsimp only
      split
      · exact h.congr rfl
      · by_cases hpath : path = removed
        · subst hpath
          intro text manifest htext
          rw [World.setFile_files_self] at htext
          cases htext
        · exact h.congr (World.setFile_files_of_ne _ _ hpath)

namespace FileDownloadClient

/-! ### What the threads receive -/

/-- The frame that arrives serves the source. -/
def Serves (source : Bytes) (event : Event) : Prop :=
  ∀ index encoded bytes header, event = .frame index encoded bytes →
    decodeFrameHeader encoded = .ok header → ServedFrom source header bytes

/-- What a stream has received of its chunk is a stretch of the source. -/
structure FromSource (source data : Bytes) (stream : DownloadStream) : Prop where
  slice : data = World.slice source stream.activeChunkOffset data.length
  next : stream.activeChunkNextOffset = stream.activeChunkOffset + data.length
  algorithm : stream.checksumComputer.algorithm = .crc32c
  fed : stream.checksumComputer.Fed data

def HonestTask (source data : Bytes) : StreamTask → Prop
  | .prepare _ init => init.totalSize.toNat = source.length
  | .receive stream => stream.chunkActive = true → FromSource source data stream
  | .write stream _ complete => FromSource source data stream ∧
      ∀ payload, complete = some payload → CompleteOk stream payload
  | _ => True

section Tasks

variable {source data bytes : Bytes} {options : FileDownloadOptions} {backend : ChecksumBackend}
  {stream b : DownloadStream} {header : FrameHeader} {hardware : Bool}

/-- **The bytes of a DATA frame** continue the stretch. -/
theorem FromSource.afterData (h : stream.chunkActive = true → FromSource source data stream)
    (hcrc : options.checksumAlgorithm = .crc32c)
    (hb : b = beginChunk options backend stream header hardware)
    (hnext : b.activeChunkNextOffset = header.offset.toNat)
    (hbytes : bytes = World.slice source header.offset.toNat bytes.length) :
    FromSource source (if stream.chunkActive then data ++ bytes else bytes)
      (b.afterData hardware bytes) := by
  rw [← hnext] at hbytes
  cases hactive : stream.chunkActive with
  | true =>
      obtain ⟨hslice, hend, halgorithm, hfed⟩ := h hactive
      rw [beginChunk, if_pos hactive] at hb
      subst hb
      refine ⟨?_, ?_, ?_, hfed.update hardware bytes⟩
      · show data ++ bytes = World.slice source b.activeChunkOffset (data ++ bytes).length
        rw [List.length_append, ← World.slice_append, ← hslice, ← hend, ← hbytes]
      · show b.activeChunkNextOffset + bytes.length = b.activeChunkOffset + (data ++ bytes).length
        rw [List.length_append, hend, Nat.add_assoc]
      · exact (ChecksumComputer.update_algorithm _ _ _).trans halgorithm
  | false =>
      rw [beginChunk, if_neg (by rw [hactive]; exact Bool.false_ne_true)] at hb
      subst hb
      refine ⟨hbytes, rfl, ?_, ?_⟩
      · exact (ChecksumComputer.update_algorithm _ _ _).trans hcrc
      · exact (ChecksumComputer.new_fed hardware _ _).update hardware bytes

/-- A chunk that is complete has the checksum of the source. -/
theorem FromSource.recorded (h : FromSource source data stream) {payload : ChunkCompletePayload}
    (hcheck : CompleteOk stream payload)
    (hchecksum : stream.checksumComputer.finalize = payload.checksum) :
    payload.checksum = checksumOf .crc32c
      (World.slice source payload.offset.toNat payload.length.toNat) := by
  rw [hcheck.offset, hcheck.length, h.next, Nat.add_sub_cancel_left, ← h.slice, ← hchecksum,
    h.fed.finalize, h.algorithm]

/-- One thread goes on. -/
theorem honestTasks_set {tasks : List StreamTask} {gathered gathered' : Nat → Bytes} {index : Nat}
    {task' : StreamTask}
    (h : ∀ (i : Nat) (task : StreamTask), tasks[i]? = some task → HonestTask source (gathered i) task)
    (hgathered : ∀ i, i ≠ index → gathered' i = gathered i)
    (hnew : HonestTask source (gathered' index) task') :
    ∀ (i : Nat) (task : StreamTask), (tasks.set index task')[i]? = some task →
      HonestTask source (gathered' i) task := by
  intro i task htask
  by_cases hi : i = index
  · subst hi
    obtain ⟨hlt, -⟩ := List.getElem?_eq_some_iff.mp htask
    rw [List.length_set] at hlt
    rw [List.getElem?_set_self hlt] at htask
    rw [← Option.some.inj htask]
    exact hnew
  · rw [List.getElem?_set_ne (fun hji => hi hji.symm)] at htask
    rw [hgathered i hi]
    exact h i task htask

/-- **A step of a thread that is served the source.** -/
theorem honestTasks_step {run : DownloadRun} {c : Client} {event : Event} {r : Client × World}
    (h : ∀ (i : Nat) (task : StreamTask), c.tasks[i]? = some task →
      HonestTask source (run.gathered i) task)
    (hcrc : c.options.checksumAlgorithm = .crc32c) (hserves : Serves source event)
    (hends : Client.StreamEnds c run.world event r) :
    ∀ (i : Nat) (task : StreamTask), r.1.tasks[i]? = some task →
      HonestTask source (run.gather c event i) task := by
  have hset : ∀ {index : Nat} {task' : StreamTask}, c.takes event = none →
      HonestTask source (run.gathered index) task' →
      ∀ (i : Nat) (task : StreamTask), (c.tasks.set index task')[i]? = some task →
        HonestTask source (run.gather c event i) task := by
    intro index task' htakes hnew
    rw [DownloadRun.gather_none htakes]
    exact honestTasks_set h (fun _ _ => rfl) hnew
  cases hends with
  | kept htakes =>
      rw [DownloadRun.gather_none htakes]
      exact h
  | @failed _ index task _ e htakes htask htasks =>
      rw [htasks]
      refine honestTasks_set h (fun i hi => ?_) trivial
      rw [DownloadRun.gather]
      cases htaken : c.takes event with
      | none => rfl
      | some taken =>
          obtain ⟨j, stream, bytes⟩ := taken
          obtain rfl := htakes j stream bytes htaken
          exact Function.update_of_ne hi _ _
  | @connected index streamId encoded bytes init streamsSeen htask hread =>
      apply hset
      · apply Client.takes_none
        refine Or.inr fun stream hstream => ?_
        rw [htask] at hstream
        cases hstream
      · -- the SessionInit says how long the source is
        simp only [readSessionInit, bind_eq_ok, require_eq_ok] at hread
        obtain ⟨header, hheader, _, -, _, htype, _, -, payload, hdecode, hread⟩ := hread
        obtain ⟨_, -, _, -, _, -, _, -, heq⟩ := hread
        obtain ⟨-, rfl⟩ := Prod.mk.inj (Except.ok.inj heq)
        obtain ⟨init', hdecode', htotal⟩ :=
          (hserves index encoded bytes header rfl hheader).sessionInit htype
        obtain rfl := Except.ok.inj (hdecode.symm.trans hdecode')
        exact htotal
  | prepared missing htask hprepare => exact hset rfl trivial
  | answered hardware htask hframe => exact hset rfl (fun hactive => by cases hactive)
  | @data index encoded bytes header stream b htask htakes hheader htype hinside hb hnext =>
      have hgather : run.gather c (.frame index encoded bytes) = Function.update run.gathered index
          (if stream.chunkActive then run.gathered index ++ bytes else bytes) := by
        rw [DownloadRun.gather, htakes]
      rw [hgather]
      refine honestTasks_set h (fun i hi => Function.update_of_ne hi _ _) ?_
      rw [Function.update_self]
      refine ⟨?_, fun payload hnone => (by cases hnone)⟩
      apply FromSource.afterData (h index _ htask) hcrc hb hnext
      exact (hserves index encoded bytes header rfl hheader).data htype
  | @complete index encoded bytes stream payload htask htakes hcheck =>
      apply hset htakes
      obtain ⟨hslice, hnext, halgorithm, hfed⟩ := h index _ htask hcheck.active
      refine ⟨⟨hslice, hnext, halgorithm, hfed⟩, fun payload' hpayload => ?_⟩
      obtain rfl := Option.some.inj hpayload
      exact ⟨hcheck.active, hcheck.offset, hcheck.length⟩
  | fin htask htakes hidle hframe => exact hset htakes trivial
  | @wrote index moved stream job jobs complete s w' htask hs hwrite =>
      have hwriting : HonestTask source (run.gathered index) (.write stream (job :: jobs) complete) :=
        h index _ htask
      exact hset rfl hwriting
  | @written index moved stream htask =>
      apply hset rfl
      exact fun _ => (h index _ htask).1
  | recorded htask hs hchecksum hrecord => exact hset rfl (fun hactive => by cases hactive)

end Tasks

/-! ### The session and its manifest file -/

/-- The session is about the source, and so is every record, also of those that
may be read back from disk. -/
structure HonestSession (source : Bytes) (options : FileDownloadOptions)
    (session : Option DownloadSession) (w : World) : Prop where
  disk : DiskSays parseDownloadManifest w (downloadManifestPathForOutput options.path)
    (Manifest.RecordsAre (SourceRecord source))
  session : ∀ s, session = some s →
    s.manifest.totalSize = source.length ∧ s.manifest.RecordsAre (SourceRecord source)

section Sessions

variable {source : Bytes} {options : FileDownloadOptions} {session after : Option DownloadSession}
  {s s' : DownloadSession} {w w' : World} {init : SessionInitPayload} {backend : ChecksumBackend}

theorem HonestSession.frame (h : HonestSession source options session w) {S : Set Path}
    (hframe : World.Frame S w w') (hS : downloadManifestPathForOutput options.path ∉ S) :
    HonestSession source options session w' :=
  ⟨h.disk.congr (hframe.files _ hS), h.session⟩

/-- Calls that record nothing. -/
theorem HonestSession.quiet (h : HonestSession source options (some s) w)
    (hsound : SessionSound options s) {S : Set Path}
    (hS : downloadManifestPathForOutput options.path ∉ S)
    (hcalls : Session.QuietCalls downloadSessionFormat S s w s' w') :
    HonestSession source options (some s') w' := by
  obtain ⟨htotal, hrecords⟩ := h.session s rfl
  have hsize := (hsound.calls hcalls.calls).2
  obtain ⟨hardware, init, backend, hs⟩ := hsound
  obtain ⟨hdisk, hrecords'⟩ := hcalls.recordsAre download_readsBack hs hS hrecords h.disk
  refine ⟨hdisk, ?_⟩
  rintro _ ⟨⟩
  exact ⟨hsize.trans htotal, hrecords'⟩

theorem removeOldFiles_diskSays {parse : Bytes → Except Status (Manifest DownloadPaths)}
    {path : Path} {Q : Manifest DownloadPaths → Prop} (h : DiskSays parse w path Q)
    (options : FileDownloadOptions) (tempPath : Path) :
    DiskSays parse (removeOldFiles options tempPath w) path Q := by
  rw [removeOldFiles]
  cases options.overwrite with
  | false => exact h.removePath tempPath
  | true => exact ((h.removePath options.path).removePath _).removePath tempPath

/-- **A session that is opened** has records of the source: none, or those of a
manifest of before. -/
theorem SessionOpened.honest
    (h : SessionOpened options (sessionRequest options init backend) w after w')
    (htotal : init.totalSize.toNat = source.length)
    (hdisk : DiskSays parseDownloadManifest w (downloadManifestPathForOutput options.path)
      (Manifest.RecordsAre (SourceRecord source))) :
    HonestSession source options after w' := by
  cases h with
  | none hframe =>
      refine ⟨hdisk.congr (hframe.files _ (Set.notMem_empty _)), fun s hs => ?_⟩
      cases hs
  | @created s₀ s v w₀ _ hnew hcheck hcreate hcalls =>
      have hchecked := checkOutputFree_frame options w
      rw [hcheck] at hchecked
      have hcreated := DownloadSession.createNew_frame hcreate
      have hopens : DownloadSession.Opens v.crc32cHardwareAvailable
          (sessionRequest options init backend) s₀ := ⟨v, w₀, rfl, Or.inl hcreate⟩
      have hsound : SessionSound options s₀ := ⟨_, init, backend, hopens.sound.1⟩
      have hw₀ : DiskSays parseDownloadManifest w₀ (downloadManifestPathForOutput options.path)
          (Manifest.RecordsAre (SourceRecord source)) :=
        (hdisk.congr (hchecked.files _ (Set.notMem_empty _))).congr
          (hcreated.files _ (Set.notMem_empty _))
      have hfresh : HonestSession source options (some s₀)
          (removeOldFiles options s₀.manifest.tempPath w₀) := by
        refine ⟨removeOldFiles_diskSays hw₀ options _, ?_⟩
        rintro _ ⟨⟩
        refine ⟨hopens.sound.1.opened.totalSize.trans htotal, ?_⟩
        obtain ⟨_, _, _, -, -, rfl⟩ := DownloadSession.createNew_ok hcreate
        exact fun r hr => (List.not_mem_nil hr).elim
      refine hfresh.quiet hsound ?_ hcalls
      rw [hsound.sessionOf.temp]
      exact fun hmem => (download_filesApart w options.path options.transferId).temp_manifest hmem.symm
  | @resumed s₀ s w₀ _ hresume hcalls =>
      have hresumed := DownloadSession.resume_frame hresume
      have hopens : DownloadSession.Opens w.crc32cHardwareAvailable
          (sessionRequest options init backend) s₀ := ⟨w, w₀, rfl, Or.inr hresume⟩
      have hsound : SessionSound options s₀ := ⟨_, init, backend, hopens.sound.1⟩
      have hbefore : HonestSession source options (some s₀) w₀ := by
        refine ⟨hdisk.congr (hresumed.files _ (Set.notMem_empty _)), ?_⟩
        rintro _ ⟨⟩
        refine ⟨hopens.sound.1.opened.totalSize.trans htotal, ?_⟩
        obtain ⟨_, _, text, manifest, _, -, -, htext, hparse, -, rfl⟩ :=
          DownloadSession.resume_ok hresume
        exact hdisk text manifest htext hparse
      exact hbefore.quiet hsound (Set.notMem_empty _) hcalls

/-- **What a step of the threads does to the session.** -/
theorem SessionStep.honest {c : Client} {event : Event} {gathered : Nat → Bytes}
    (h : SessionStep c event w after w')
    (hhonest : HonestSession source c.options c.shared.session w)
    (hsound : ∀ s, c.shared.session = some s → SessionSound c.options s)
    (htasks : ∀ (i : Nat) (task : StreamTask), c.tasks[i]? = some task →
      HonestTask source (gathered i) task) : HonestSession source c.options after w' := by
  cases h with
  | idle hframe => exact hhonest.frame hframe (Set.notMem_empty _)
  | @opened index moved streamId init after w₁ _ hevent htask hready hopened hframe =>
      have hnow := (hopened.honest (htasks index _ htask) hhonest.disk).frame hframe
        (Set.notMem_empty _)
      refine ⟨hnow.disk, fun s hs => ?_⟩
      cases after with
      | none => exact hhonest.session s hs
      | some s₁ => exact hnow.session s hs
  | @wrote s _ hs hframe =>
      rw [hs] at hhonest
      refine hhonest.frame hframe ?_
      rw [(hsound s hs).sessionOf.temp]
      exact fun hmem =>
        (download_filesApart w c.options.path c.options.transferId).temp_manifest hmem.symm
  | @recorded index moved stream payload status s s' w₁ _ hevent htask hs hchecksum hrecord hframe =>
      obtain ⟨htotal, hrecords⟩ := hhonest.session s hs
      have hcalls := @recordVerifiedChunk_calls ∅ _ _ _ _ _ _ hrecord
      have hsize := ((hsound s hs).calls hcalls).2
      obtain ⟨hardware, init, backend, hsession⟩ := hsound s hs
      have hwriting : HonestTask source (gathered index) (.write stream [] (some payload)) :=
        htasks index _ htask
      obtain ⟨hfrom, hcomplete⟩ := hwriting
      obtain ⟨hdisk, hrecords'⟩ := hsession.recorded_recordsAre download_readsBack hrecords
        hhonest.disk (hfrom.recorded (hcomplete payload rfl) hchecksum) hrecord
      refine ⟨hdisk.congr (hframe.files _ (Set.notMem_empty _)), ?_⟩
      rintro _ ⟨⟩
      exact ⟨hsize.trans htotal, hrecords'⟩

end Sessions

/-! ### The whole client -/

/-- What holds of a client that is served the source. -/
structure HonestClient (source : Bytes) (gathered : Nat → Bytes) (c : Client) (w : World) :
    Prop where
  tasks : ∀ (i : Nat) (task : StreamTask), c.tasks[i]? = some task →
    HonestTask source (gathered i) task
  session : HonestSession source c.options c.shared.session w

section Clients

variable {source : Bytes} {path : Path} {contents : Set (Segment UInt8)} {gathered : Nat → Bytes}
  {run : DownloadRun} {c : Client} {w : World} {event : Event} {s : DownloadSession}

/-- A step of a thread, also of one that fails. -/
theorem HonestClient.thread (h : HonestClient source run.gathered c run.world)
    (hok : ClientOk path run.contents run.gathered c run.world) (hphase : c.phase = .streaming)
    (hevent : event ≠ .proceed) (hserves : Serves source event) :
    HonestClient source (run.gather c event) (c.step event run.world).1
      (c.step event run.world).2 := by
  obtain ⟨hsession, hoptions, -, -⟩ := Client.step_thread hphase hevent run.world
  refine ⟨honestTasks_step h.tasks hok.crc hserves (Client.step_ends hphase hevent), ?_⟩
  rw [hoptions]
  exact hsession.honest h.session hok.sound h.tasks

theorem HonestClient.conclude (h : HonestClient source gathered c w)
    (hs : c.shared.session = some s) (hsound : SessionSound c.options s) {S : Set Path}
    (hS : downloadManifestPathForOutput c.options.path ∉ S) {r : CommitResult DownloadPaths}
    (hcalls : Session.QuietCalls downloadSessionFormat S s w r.2.1 r.2.2) (next : Phase)
    (afterRename : Bool) :
    HonestClient source gathered (c.conclude next afterRename r).1
      (c.conclude next afterRename r).2 := by
  have hsession := h.session
  rw [hs] at hsession
  have hsession' := hsession.quiet hsound hS hcalls
  rcases r with ⟨e | _, s', w'⟩
  · exact ⟨h.tasks, hsession'⟩
  · exact ⟨h.tasks, hsession'⟩

/-- The main thread, whatever it does. -/
theorem HonestClient.proceed (h : HonestClient source gathered c w)
    (hok : ClientOk path contents gathered c w) :
    HonestClient source gathered (c.step .proceed w).1 (c.step .proceed w).2 := by
  have hnotTemp : ∀ s, c.shared.session = some s →
      downloadManifestPathForOutput c.options.path ≠ s.manifest.tempPath := by
    intro s hs hmem
    rw [(hok.sound s hs).sessionOf.temp] at hmem
    exact (download_filesApart w c.options.path c.options.transferId).temp_manifest hmem.symm
  have hnotOutput : downloadManifestPathForOutput c.options.path ≠ c.options.path := fun hmem =>
    (download_filesApart w c.options.path c.options.transferId).output_manifest hmem.symm
  cases hphase : c.phase with
  | streaming =>
      rw [Client.step_join hphase]
      split
      · rw [Client.join]
        split
        · rename_i e s _ hs
          split
          · exact h.conclude hs (hok.sound s hs) (Set.notMem_empty _)
              (s.fail_quiet downloadSessionFormat _ _ w) _ _
          · exact ⟨h.tasks, h.session⟩
        · exact ⟨h.tasks, h.session⟩
        · rename_i s _ hs
          split
          · exact h.conclude hs (hok.sound s hs) (hnotTemp s hs)
              (checkReceived_quiet c.options _ s w) _ _
          · exact ⟨h.tasks, h.session⟩
        · exact ⟨h.tasks, h.session⟩
      · exact h
  | checked =>
      unfold Client.step
      rw [hphase]
      cases hs : c.shared.session with
      | none => exact h
      | some s =>
          exact h.conclude hs (hok.sound s hs) hnotOutput (freeOutput_quiet c.options s w) _ _
  | freed =>
      unfold Client.step
      rw [hphase]
      cases hs : c.shared.session with
      | none => exact h
      | some s =>
          refine h.conclude hs (hok.sound s hs) ?_ (renameTemp_quiet c.options s w) _ _
          rintro (hmem | hmem)
          · exact hnotTemp s hs hmem
          · exact hnotOutput hmem
  | renamed =>
      unfold Client.step
      rw [hphase]
      cases hs : c.shared.session with
      | none => exact h
      | some s =>
          exact h.conclude hs (hok.sound s hs) (Set.notMem_empty _)
            (sealOutput_quiet downloadSessionFormat c.options.toCommitOptions s w) _ _
  | returned status afterRename =>
      unfold Client.step
      rw [hphase]
      exact h

/-- **One step**; frames arrive only while the threads run. -/
theorem HonestClient.step (h : HonestClient source run.gathered c run.world)
    (hok : ClientOk path run.contents run.gathered c run.world) (hserves : Serves source event)
    (harrives : c.phase ≠ .streaming → c.takes event = none) :
    HonestClient source (run.receive c event).gathered (c.step event run.world).1
      (c.step event run.world).2 := by
  by_cases hevent : event = .proceed
  · subst hevent
    exact h.proceed hok
  · by_cases hphase : c.phase = .streaming
    · exact h.thread hok hphase hevent hserves
    · rw [Client.step_settled hphase hevent]
      show HonestClient source (run.gather c event) c run.world
      rw [DownloadRun.gather_none (harrives hphase)]
      exact h

/-! ### The output -/

/-- **At the rename the temp file is the source.** -/
theorem ClientOk.temp_source (hok : ClientOk path contents gathered c w)
    (h : HonestClient source gathered c w)
    (hcollision : NoCollision (contents ∪ sourceSegments source)) (hphase : c.phase = .freed) :
    ∃ s, c.shared.session = some s ∧ w.files s.manifest.tempPath = some source := by
  obtain ⟨s, content, hs, hfile, hreceived⟩ := hok.received (Or.inr hphase)
  obtain ⟨htotal, hrecords⟩ := h.session.session s hs
  obtain ⟨hardware, init, backend, hsound⟩ := hok.sound s hs
  have hcontent : content = source := by
    refine hsound.ok.content_eq hreceived.missing htotal ?_ fun record hrecord => ?_
    · rw [hreceived.length, htotal]
    · obtain ⟨-, seg, hseg, has, hslice⟩ := hsound.ok.records.slice_eq
        (NoCollision.mono hcollision Set.subset_union_left) hreceived.stored hrecord
      have hinside := (hsound.ok.records.bounded _ (List.mem_map_of_mem hrecord)).2
      rw [htotal] at hinside
      have hlength : (World.slice source record.offset record.length).length = record.length :=
        World.length_slice hinside
      -- the content of the record and the stretch of the source do not collide
      rw [hslice]
      refine hcollision seg (Or.inl hseg)
        ⟨record.offset, World.slice source record.offset record.length⟩ (Or.inr ?_) has.offset
        (has.length.trans hlength.symm) ?_
      · constructor
        · rw [Segment.end, hlength]
          exact hinside
        · rw [hlength]
      · exact congrArg ChecksumValue.value (has.checksum.trans (hrecords record hrecord))
  rw [hcontent] at hfile
  exact ⟨s, hs, hfile⟩

/-- The temp file has become the output. -/
def Phase.afterRename : Phase → Bool
  | .renamed => true
  | .returned _ afterRename => afterRename
  | _ => false

theorem conclude_afterRename {next : Phase} {r : CommitResult DownloadPaths}
    (h : (c.conclude next false r).1.phase.afterRename = true) :
    r.1 = .ok () ∧ next.afterRename = true := by
  rcases r with ⟨e | _, s, w⟩
  · cases h
  · exact ⟨rfl, h⟩

/-- **After the rename the output is the source**, and a session says so. -/
theorem ClientOk.renamed_source (hok : ClientOk path contents gathered c w)
    (h : HonestClient source gathered c w)
    (hcollision : NoCollision (contents ∪ sourceSegments source))
    (hbefore : c.phase.afterRename = true →
      w.files path = some source ∧ ∃ s, c.shared.session = some s)
    (hafter : (c.step event w).1.phase.afterRename = true) :
    (c.step event w).2.files path = some source ∧
      ∃ s, (c.step event w).1.shared.session = some s := by
  have hpath := hok.path
  subst hpath
  by_cases hevent : event = .proceed
  · subst hevent
    cases hphase : c.phase with
    | streaming =>
        rw [Client.step_join hphase] at hafter
        split at hafter
        · rw [Client.join] at hafter
          split at hafter
          · split at hafter
            · obtain ⟨-, hnext⟩ := conclude_afterRename hafter
              cases hnext
            · cases hafter
          · cases hafter
          · split at hafter
            · obtain ⟨-, hnext⟩ := conclude_afterRename hafter
              cases hnext
            · cases hafter
          · cases hafter
        · rw [hphase] at hafter
          cases hafter
    | checked =>
        unfold Client.step at hafter
        rw [hphase] at hafter
        dsimp only at hafter
        split at hafter
        · rw [hphase] at hafter
          cases hafter
        · obtain ⟨-, hnext⟩ := conclude_afterRename hafter
          cases hnext
    | freed =>
        obtain ⟨s, hs, hfile⟩ := hok.temp_source h hcollision hphase
        unfold Client.step at hafter ⊢
        rw [hphase, hs] at hafter ⊢
        dsimp only at hafter ⊢
        obtain ⟨hrenamed, -⟩ := conclude_afterRename hafter
        rw [Client.renameTemp] at hrenamed ⊢
        rcases hresult : w.renamePath s.manifest.tempPath c.options.path with ⟨e | _, w'⟩
        · rw [hresult] at hrenamed
          cases hrenamed
        · have hapart := download_filesApart w c.options.path c.options.transferId
          have hne : s.manifest.tempPath ≠ c.options.path := by
            rw [(hok.sound s hs).sessionOf.temp]
            exact hapart.output_temp.symm
          obtain ⟨content, hold, hnew, -⟩ := World.renamePath_ok hresult hne
          obtain rfl := Option.some.inj (hfile.symm.trans hold)
          exact ⟨hnew, s, rfl⟩
    | renamed =>
        obtain ⟨hfile, s, hs⟩ := hbefore (by rw [hphase]; rfl)
        unfold Client.step
        rw [hphase, hs]
        have hof := (hok.sound s hs).sessionOf
        have hcalls := (sealOutput_calls downloadSessionFormat c.options.toCommitOptions s
          w).mono (Set.empty_subset {s.manifest.tempPath})
        have hkept := (hof.output hcalls).trans hfile
        dsimp only
        rcases hresult : sealOutput downloadSessionFormat c.options.toCommitOptions s w
          with ⟨e | _, s', w'⟩
        · rw [hresult] at hkept
          exact ⟨hkept, s', rfl⟩
        · rw [hresult] at hkept
          exact ⟨hkept, s', rfl⟩
    | returned status afterRename =>
        unfold Client.step at hafter ⊢
        rw [hphase] at hafter ⊢
        exact hbefore hafter
  · by_cases hphase : c.phase = .streaming
    · have hsame := (Client.step_thread hphase hevent w).phase
      rw [hsame, hphase] at hafter
      cases hafter
    · rw [Client.step_settled hphase hevent] at hafter ⊢
      exact hbefore hafter

end Clients

end FileDownloadClient

end GridFlux
