/-
GridFlux/SessionRuns.lean

What a run of either session class guarantees in every state it reaches.

* the chunk records partition what is completed (`session_coverage`);
* as long as no corrupt record is dropped from an unordered record list, every
  manifest written is the one the plain serializer makes (`session_writes`);
* a saved session comes back whole (`session_save_resume`).
-/
import GridFlux.TransferSession
import GridFlux.DownloadSession

namespace GridFlux

open HalfOpen TextCodec Transition

/-- The runs of the upload side's sessions. -/
def transferSystem (hardware : Bool) (request : SessionRequest TransferPaths) :
    System TransferSession (SessionOp × World) :=
  sessionSystem transferSessionFormat (TransferSession.Opens hardware request)

/-- The runs of the download side's sessions; the class has no
`recordCompletedRange`, so these are more runs than it can make. -/
def downloadSystem (hardware : Bool) (request : SessionRequest DownloadPaths) :
    System DownloadSession (SessionOp × World) :=
  sessionSystem downloadSessionFormat (DownloadSession.Opens hardware request)

/-! ### Three chunks

A transfer of three chunks of one zero byte each; the second byte of the temp
file is not zero. -/

def threeChunks : SessionRequest TransferPaths :=
  ⟨⟨ascii "o"⟩, ascii "t", 3, 1, .crc32c, .software, .finalOnly, 1⟩

def threeChunksDownload : SessionRequest DownloadPaths :=
  ⟨⟨ascii "s", ascii "o"⟩, ascii "t", 3, 1, .crc32c, .software, .finalOnly, 1⟩

def corruptSecondByte : World :=
  .withFiles fun path => if path = ascii "o.part.t" then some [0, 1, 0] else none

def recordZero (offset : UInt64) : SessionOp :=
  .recordVerifiedChunk offset offset 1 (checksumOf .crc32c [0])

/-- The session after the operations, each made in `corruptSecondByte`. -/
def threeChunksAfter (ops : List SessionOp) : TransferSession :=
  ops.foldl (fun s op => (op.run transferSessionFormat s corruptSecondByte).2.1)
    (Session.fresh transferSessionFormat threeChunks .software 0 1)

theorem threeChunks_opens : TransferSession.Opens false threeChunks (threeChunksAfter []) :=
  ⟨corruptSecondByte, _, rfl, Or.inl rfl⟩

theorem threeChunks_reachable (ops : List SessionOp) :
    (transferSystem false threeChunks).Reachable (threeChunksAfter ops) := by
  induction ops using List.reverseRecOn with
  | nil => exact .initial threeChunks_opens
  | append_singleton ops op ih =>
      rw [threeChunksAfter, List.foldl_append]
      exact ih.step (l := (op, corruptSecondByte)) rfl

theorem threeChunksDownload_reachable :
    (downloadSystem false threeChunksDownload).Reachable
      (Session.fresh downloadSessionFormat threeChunksDownload .software 0 1) :=
  .initial ⟨corruptSecondByte, _, rfl, Or.inl rfl⟩

/-! ### Coverage -/

/-- The three representations of what is done agree. -/
structure Coverage {P : Type} (s : Session P) : Prop where
  nonempty : ∀ r ∈ s.records, 0 < r.length
  bounded : ∀ r ∈ s.records, r.offset + r.length ≤ s.manifest.totalSize
  disjoint : s.records.Pairwise fun a b =>
    Disjoint (Set.Ico a.offset (a.offset + a.length)) (Set.Ico b.offset (b.offset + b.length))
  /-- the range list is the union of the records, in canonical form -/
  completed : Canonical s.completed.ranges ∧
    covered s.completed.ranges =
      {x | ∃ r ∈ s.records, r.offset ≤ x ∧ x < r.offset + r.length}
  bytesCompleted : s.bytesCompleted = (s.records.map (·.length)).sum
  /-- the missing ranges are its complement, in canonical form -/
  missing : Canonical s.missingRanges ∧
    covered s.missingRanges = {x | x < s.manifest.totalSize ∧
      ∀ r ∈ s.records, ¬(r.offset ≤ x ∧ x < r.offset + r.length)}

theorem covered_recordRanges (records : List ChunkChecksumRecord) :
    covered (recordRanges records) =
      {x | ∃ r ∈ records, r.offset ≤ x ∧ x < r.offset + r.length} := by
  ext x
  simp [mem_covered, recordRanges, ChunkChecksumRecord.range]

theorem totalLength_recordRanges (records : List ChunkChecksumRecord) :
    totalLength (recordRanges records) = (records.map (·.length)).sum := by
  induction records with
  | nil => rfl
  | cons r records ih =>
      simp only [recordRanges, List.map_cons, totalLength_cons, List.sum_cons] at ih ⊢
      rw [ih]
      simp [ChunkChecksumRecord.range]

/-- The session invariant is the coverage property. -/
theorem Session.Ok.coverage {P : Type} {s : Session P} (h : s.Ok) : Coverage s where
  nonempty r hr := by
    have hb := h.records.bounded r.range (List.mem_map_of_mem hr)
    simp only [ChunkChecksumRecord.range] at hb
    omega
  bounded r hr := (h.records.bounded r.range (List.mem_map_of_mem hr)).2
  disjoint := by
    refine (List.pairwise_map.mp h.records.separated).imp fun {a b} hab => ?_
    refine Set.disjoint_left.mpr fun x hxa hxb => ?_
    simp only [ChunkChecksumRecord.range, Set.mem_Ico] at hab hxa hxb
    omega
  completed := ⟨h.derived.wellFormed.canonical,
    h.derived.covered_eq.trans (covered_recordRanges s.records)⟩
  bytesCompleted := h.derived.bytes_eq.trans (totalLength_recordRanges s.records)
  missing := by
    refine ⟨RangeList.canonical_missingRanges h.derived.wellFormed, ?_⟩
    rw [missingRanges, RangeList.covered_missingRanges h.derived.wellFormed,
      h.derived.covered_eq, covered_recordRanges]
    ext x
    simp [Set.mem_sdiff]

/-- A sound opening makes every reachable state sound. -/
theorem sound_of_reachable {P : Type} {format : SessionFormat P} {hardware : Bool}
    {request : SessionRequest P} {initial : Session P → Prop}
    (hinitial : ∀ s, initial s → s.Sound format hardware request) {s : Session P}
    (h : (sessionSystem format initial).Reachable s) : s.Sound format hardware request := by
  refine h.invariant hinitial fun l s s' _ hs hstep => ?_
  obtain rfl := hstep
  exact hs.run l.1 l.2

theorem transfer_sound {hardware : Bool} {request : SessionRequest TransferPaths}
    {s : TransferSession} (h : (transferSystem hardware request).Reachable s) :
    s.Sound transferSessionFormat hardware request :=
  sound_of_reachable (fun _ hs => hs.sound.1) h

theorem download_sound {hardware : Bool} {request : SessionRequest DownloadPaths}
    {s : DownloadSession} (h : (downloadSystem hardware request).Reachable s) :
    s.Sound downloadSessionFormat hardware request :=
  sound_of_reachable (fun _ hs => hs.sound.1) h

/-- **Coverage.**  In every reachable state of either class, whatever was
called and however the calls ended, the records are non-empty, disjoint and in
bounds, the range list is their union, and the missing ranges its complement. -/
theorem session_coverage (hardware : Bool) :
    (∀ request s, (transferSystem hardware request).Reachable s → Coverage s) ∧
      (∀ request s, (downloadSystem hardware request).Reachable s → Coverage s) :=
  ⟨fun _ _ h => (transfer_sound h).ok.coverage, fun _ _ h => (download_sound h).ok.coverage⟩

theorem session_coverage_of_two_records :
    Coverage (threeChunksAfter [recordZero 2, recordZero 0]) ∧
      Coverage (Session.fresh downloadSessionFormat threeChunksDownload .software 0 1) :=
  ⟨(session_coverage false).1 threeChunks _ (threeChunks_reachable _),
    (session_coverage false).2 threeChunksDownload _ threeChunksDownload_reachable⟩

/-! ### What a save writes -/

/-- The fast path of `save` and the plain serializer agree in state `s`. -/
structure FastPathAgrees {P : Type} (format : SessionFormat P) (s : Session P) : Prop where
  sorted : s.verifiedChunksSorted = true → RecordsSorted s.records
  ranges : s.completedRangesDirty = false → ∃ derived,
    completedFromVerified s.records s.manifest.totalSize = .ok derived ∧
      s.manifest.completedRanges = derived.ranges
  save : ∀ (w : World) (s' : Session P) (w' : World) (u : Unit), s.save format w = (.ok u, s', w') →
    ∃ text, serializeManifest format.toManifestFormat s'.manifest = .ok text ∧
      w'.files s'.manifestPath = some text
  /-- also for the saves inside the other operations -/
  writes : ∀ (op : SessionOp) (w : World), op.KeepsOrder w s → Session.WritesSerialized format w (op.run format s w)

theorem Session.OrderHonest.fastPathAgrees {P : Type} {format : SessionFormat P}
    {s : Session P} (h : s.OrderHonest) (hranges : s.RangesCurrent) (hok : s.Ok) :
    FastPathAgrees format s where
  sorted := h
  ranges hdirty := by
    obtain ⟨derived, hderived, hcurrent⟩ := hok.completedFromVerified
    exact ⟨derived, hderived, (hranges hdirty).trans hcurrent.symm⟩
  save w s' w' u hsave := h.save hranges hok hsave
  writes op w hop := h.writes hranges hok hop

/-- A run whose steps all keep the order, from a state with sorted records. -/
theorem fastPathAgrees_of_reachable {P : Type} {format : SessionFormat P} {hardware : Bool}
    {request : SessionRequest P} {initial : Session P → Prop}
    (hinitial : ∀ s, initial s → s.Sound format hardware request ∧ RecordsSorted s.records)
    {s : Session P}
    (h : ((sessionSystem format initial).restrict fun l s => l.1.KeepsOrder l.2 s).Reachable s) :
    FastPathAgrees format s := by
  have hsound : ∀ s, ((sessionSystem format initial).restrict fun l s =>
      l.1.KeepsOrder l.2 s).Reachable s → s.Sound format hardware request := fun s hs =>
    sound_of_reachable (fun s hs => (hinitial s hs).1) hs.of_restrict
  have horder : s.OrderHonest := by
    refine h.invariant (I := Session.OrderHonest) (fun s hs _ => (hinitial s hs).2)
      fun l s s' hs horder hstep => ?_
    obtain ⟨hkeeps, rfl⟩ := hstep
    exact horder.run (hsound s hs).ok hkeeps
  exact horder.fastPathAgrees (hsound s h).ranges (hsound s h).ok

/-- **The fast path is right** in every state of a run in which every call of
`verifyTempChunks` finds all records intact or leaves intact ones in manifest
order. -/
theorem session_writes (hardware : Bool) :
    (∀ request s, ((transferSystem hardware request).restrict
        fun l s => l.1.KeepsOrder l.2 s).Reachable s → FastPathAgrees transferSessionFormat s) ∧
      (∀ request s, ((downloadSystem hardware request).restrict
        fun l s => l.1.KeepsOrder l.2 s).Reachable s → FastPathAgrees downloadSessionFormat s) :=
  ⟨fun _ _ h => fastPathAgrees_of_reachable (fun _ hs => hs.sound) h,
    fun _ _ h => fastPathAgrees_of_reachable (fun _ hs => hs.sound) h⟩

/-- Records made in order: what is left after the check is in order too. -/
theorem session_writes_in_order :
    FastPathAgrees transferSessionFormat (threeChunksAfter
      [recordZero 0, recordZero 1, recordZero 2, .verifyTempChunks (ascii "o.part.t")]) := by
  refine (session_writes false).1 threeChunks _ ?_
  have h0 := System.Reachable.initial (M := (transferSystem false threeChunks).restrict
    fun l s => l.1.KeepsOrder l.2 s) threeChunks_opens
  have h1 := h0.step (l := (recordZero 0, corruptSecondByte)) ⟨trivial, rfl⟩
  have h2 := h1.step (l := (recordZero 1, corruptSecondByte)) ⟨trivial, rfl⟩
  have h3 := h2.step (l := (recordZero 2, corruptSecondByte)) ⟨trivial, rfl⟩
  have h4 := h3.step (l := (.verifyTempChunks (ascii "o.part.t"), corruptSecondByte))
    ⟨by decide, rfl⟩
  exact h4

/-- Three records made in reverse order, then checked. -/
def reversedThenChecked : TransferSession :=
  threeChunksAfter
    [recordZero 2, recordZero 1, recordZero 0, .verifyTempChunks (ascii "o.part.t")]

/-- **Records made in reverse order**: the check drops the middle one, calls
the rest sorted, and from then on `save` writes them unsorted. -/
theorem session_writes_reversed :
    (transferSystem false threeChunks).Reachable reversedThenChecked ∧
      reversedThenChecked.verifiedChunksSorted = true ∧
      ¬RecordsSorted reversedThenChecked.records ∧
      ∃ s' w' text,
        reversedThenChecked.save transferSessionFormat corruptSecondByte = (.ok (), s', w') ∧
        w'.files s'.manifestPath = some text ∧
        serializeManifest transferFormat s'.manifest ≠ .ok text := by
  refine ⟨threeChunks_reachable _, by decide +kernel, by decide +kernel, ?_⟩
  have hok : (reversedThenChecked.save transferSessionFormat corruptSecondByte).1.isOk = true := by
    decide +kernel
  rcases hsave : reversedThenChecked.save transferSessionFormat corruptSecondByte
    with ⟨e | _, s', w'⟩
  · rw [hsave] at hok
    cases hok
  · obtain ⟨text, hprepared, rfl, hfile⟩ := Session.save_ok hsave
    refine ⟨_, w', text, rfl, hfile, fun hplain => ?_⟩
    obtain ⟨completed, hcompleted, hbody⟩ := body_eq_of_serialized _ hprepared hplain
    have hranges : completedFromVerified (sortedRecords (reversedThenChecked.prepareSave
        transferSessionFormat 0).afterSave.manifest.verifiedChunks) 3 =
        .ok ⟨[⟨0, 1⟩, ⟨2, 3⟩], 2⟩ := by decide +kernel
    obtain rfl := Except.ok.inj (hcompleted.symm.trans hranges)
    exact absurd hbody (by decide +kernel)

/-! ### Save, then resume -/

/-- Session `r` has made the same progress as session `s`. -/
structure SameProgress {P : Type} (s r : Session P) : Prop where
  records : r.records.Perm s.records
  completedRanges : r.completed.ranges = s.completed.ranges
  bytesCompleted : r.bytesCompleted = s.bytesCompleted
  missingRanges : r.missingRanges = s.missingRanges

/-- Two sessions of the same size with the same records have made the same
progress. -/
theorem Session.Ok.sameProgress {P : Type} {s r : Session P} (hs : s.Ok) (hr : r.Ok)
    (hrecords : r.records.Perm s.records)
    (hsize : r.manifest.totalSize = s.manifest.totalSize) : SameProgress s r := by
  have hranges : r.completed.ranges = s.completed.ranges :=
    hr.derived.ranges_eq (hsize ▸ hs.derived) hrecords
  have hbytes : r.completed.bytesCompleted = s.completed.bytesCompleted := by
    rw [hr.derived.wellFormed.bytes_eq, hs.derived.wellFormed.bytes_eq, hranges]
  refine ⟨hrecords, hranges, hbytes, ?_⟩
  rw [Session.missingRanges, Session.missingRanges, hsize, RangeList.missingRanges,
    RangeList.missingRanges, hranges]

/-- What a successful save of a sound session has written: the checksummed body
of a manifest that any parser of the format reads back. -/
theorem Session.Sound.save_text {P : Type} {format : SessionFormat P} {hardware : Bool}
    {request : SessionRequest P} {s s' : Session P} {w w' : World} {u : Unit}
    (h : s.Sound format hardware request) (hsave : s.save format w = (.ok u, s', w')) :
    s'.Sound format hardware request ∧ s'.records.Perm s.records ∧
      s'.manifest.state = s.manifest.state ∧
      w'.files s'.manifestPath = some (withBodyChecksum
        (buildManifestBody format.toManifestFormat s'.manifest s'.manifest.completedRanges)) ∧
      checkSerializable format.toManifestFormat s'.manifest = .ok () ∧
      s'.manifest.Fits ∧ ManifestOk s'.manifest s'.manifest.completedRanges := by
  have hsound : s'.Sound format hardware request := by
    have hrun := h.run .save w
    rw [show SessionOp.save.run format s w = s.save format w from rfl, hsave] at hrun
    exact hrun
  obtain ⟨text, hser, hs', hfile⟩ := Session.save_ok hsave
  have hcompleted : s'.manifest.completedRanges = s'.completed.ranges := by
    rw [hs']
    exact h.ranges.prepareSave _
  simp only [serializePreparedManifest, bind_eq_ok] at hser
  obtain ⟨_, hcheck, htext⟩ := hser
  obtain rfl := Except.ok.inj htext
  refine ⟨hsound, ?_, ?_, hfile, hcheck, ⟨?_, ?_, hsound.storable.createdAt,
    hsound.storable.updatedAt, hsound.storable.chunkIds⟩, hsound.ok.records,
    hsound.storable.algorithms, ?_, ?_⟩
  · rw [hs']
    exact s.prepareSave_records_perm format _
  · rw [hs']
    rfl
  · rw [hsound.opened.totalSize]
    exact request.totalSize.toNat_lt
  · rw [hsound.opened.chunkSize]
    exact request.chunkSize.toNat_lt
  · rw [hcompleted]
    exact hsound.ok.derived.wellFormed.canonical
  · rw [hcompleted]
    exact hsound.ok.derived.covered_eq

/-- The records of a consistent manifest can be inserted again, in manifest
order. -/
theorem insertAll_sortedRecords {records : List ChunkChecksumRecord} {totalSize : Nat}
    (h : RecordsOk records totalSize) :
    ∃ completed, RangeList.empty.insertAll totalSize (recordRanges (sortedRecords records)) =
      .ok completed :=
  insertAll_of_recordsOk (h.perm (sortedRecords_perm records).symm)

/-- A transfer session comes back from the manifest it has written. -/
theorem transfer_save_resume {hardware : Bool} {request : SessionRequest TransferPaths}
    {s s' : TransferSession} {w w' w₁ : World} {u : Unit}
    (hvalid : TransferSession.validateSessionInputs request = .ok ())
    (hs : s.Sound transferSessionFormat hardware request) (hstate : s.manifest.state ≠ .committed)
    (hsave : s.save transferSessionFormat w = (.ok u, s', w')) (hquiet : w₁.Quiet)
    (hhardware : w₁.crc32cHardwareAvailable = hardware)
    (hfile : w₁.files s'.manifestPath = w'.files s'.manifestPath) :
    ∃ r w₂, TransferSession.resume request w₁ = (.ok r, w₂) ∧ SameProgress s r := by
  obtain ⟨hs', hperm, hstate', hwritten, hcheck, hfits, hok⟩ := hs.save_text hsave
  obtain ⟨hversion, hid, ⟨hpaths, htemp⟩, hchunk⟩ := (checkSerializable_eq_ok _).mp hcheck
  have hparse := parseTransferManifest_withBodyChecksum s'.manifest s'.manifest.completedRanges
    hversion hid ⟨fun hnil => hpaths (hnil ▸ List.mem_singleton_self _), htemp⟩ hchunk hfits hok
  have hload : loadTransferManifest w₁ (manifestPathForOutput request.paths.outputPath) =
      (.ok { s'.manifest with verifiedChunks := sortedRecords s'.manifest.verifiedChunks },
        w₁.afterCall.afterCall) := by
    have hpath : s'.manifestPath = manifestPathForOutput request.paths.outputPath :=
      hs'.opened.manifestPath
    rw [← hpath, loadTransferManifest_of_quiet hquiet (hfile.trans hwritten)]
    exact congrArg (·, w₁.afterCall.afterCall) hparse
  obtain ⟨completed, hinsert⟩ := insertAll_sortedRecords hs'.ok.records
  have haccept : TransferSession.accept request { s'.manifest with
      verifiedChunks := sortedRecords s'.manifest.verifiedChunks } =
      .ok ({ s'.manifest with
        checksumAlgorithm := request.checksumAlgorithm
        verifiedChunks := sortedRecords s'.manifest.verifiedChunks }, completed) := by
    have hloaded : TransferSession.validateLoadedManifest { s'.manifest with
        verifiedChunks := sortedRecords s'.manifest.verifiedChunks } request = .ok () :=
      TransferSession.validateLoadedManifest_eq_ok.mpr
        ⟨hs'.opened.transferId, congrArg TransferPaths.outputPath hs'.opened.paths,
          hs'.opened.tempPath, hs'.opened.totalSize, hs'.opened.chunkSize, hstate' ▸ hstate,
          fun h => absurd (hversion.symm.trans h.1) (by decide),
          fun h => h.2 hs'.opened.checksumAlgorithm⟩
    have hnot : ¬s'.manifest.version = kTransferManifestVersionV1 := fun h =>
      absurd (hversion.symm.trans h) (by decide)
    rw [hs'.opened.totalSize] at hinsert
    rw [TransferSession.accept, hloaded, ok_bind, TransferSession.restore, if_neg hnot]
    simp only [Session.records] at hinsert
    rw [hinsert]
    rfl
  have hresume : TransferSession.resume request w₁ =
      (.ok (Session.resumed transferSessionFormat request s'.checksumBackend
          { s'.manifest with
            checksumAlgorithm := request.checksumAlgorithm
            verifiedChunks := sortedRecords s'.manifest.verifiedChunks }
          completed w₁.afterCall.afterCall.nowUnixNanos.1),
        w₁.afterCall.afterCall.nowUnixNanos.2) := by
    rw [TransferSession.resume]
    simp only [hvalid, hhardware, hs'.opened.checksumBackend, hload, haccept]
  refine ⟨_, _, hresume, hs.ok.sameProgress (.of_insertAll hinsert) ?_ ?_⟩
  · exact (sortedRecords_perm _).trans hperm
  · exact hs'.opened.totalSize.trans hs.opened.totalSize.symm

/-- A download session comes back from the manifest it has written. -/
theorem download_save_resume {hardware : Bool} {request : SessionRequest DownloadPaths}
    {s s' : DownloadSession} {w w' w₁ : World} {u : Unit}
    (hvalid : DownloadSession.validateInputs request = .ok ())
    (hs : s.Sound downloadSessionFormat hardware request) (hstate : s.manifest.state ≠ .committed)
    (hsave : s.save downloadSessionFormat w = (.ok u, s', w')) (hquiet : w₁.Quiet)
    (hhardware : w₁.crc32cHardwareAvailable = hardware)
    (hfile : w₁.files s'.manifestPath = w'.files s'.manifestPath) :
    ∃ r w₂, DownloadSession.resume request w₁ = (.ok r, w₂) ∧ SameProgress s r := by
  obtain ⟨hs', hperm, hstate', hwritten, hcheck, hfits, hok⟩ := hs.save_text hsave
  obtain ⟨hversion, hid, ⟨hpaths, htemp⟩, hchunk⟩ := (checkSerializable_eq_ok _).mp hcheck
  have hne : s'.manifest.paths.sourcePath ≠ [] ∧ s'.manifest.paths.targetPath ≠ [] := by
    constructor
    · intro hnil
      exact hpaths (hnil ▸ List.mem_cons_self ..)
    · intro hnil
      exact hpaths (hnil ▸ List.mem_cons_of_mem _ (List.mem_singleton_self _))
  have hparse := parseDownloadManifest_withBodyChecksum s'.manifest s'.manifest.completedRanges
    hversion hid ⟨hne.1, hne.2, htemp⟩ hchunk hfits hok
  have hload : loadDownloadManifest w₁ (downloadManifestPathForOutput request.paths.targetPath) =
      (.ok { s'.manifest with verifiedChunks := sortedRecords s'.manifest.verifiedChunks },
        w₁.afterCall.afterCall) := by
    have hpath : s'.manifestPath = downloadManifestPathForOutput request.paths.targetPath :=
      hs'.opened.manifestPath
    rw [← hpath, loadDownloadManifest_of_quiet hquiet (hfile.trans hwritten)]
    exact congrArg (·, w₁.afterCall.afterCall) hparse
  obtain ⟨completed, hinsert⟩ := insertAll_sortedRecords hs'.ok.records
  have haccept : DownloadSession.accept request { s'.manifest with
      verifiedChunks := sortedRecords s'.manifest.verifiedChunks } = .ok completed := by
    have hloaded : DownloadSession.validateLoadedManifest { s'.manifest with
        verifiedChunks := sortedRecords s'.manifest.verifiedChunks } request = .ok () :=
      DownloadSession.validateLoadedManifest_eq_ok.mpr
        ⟨hs'.opened.transferId, congrArg DownloadPaths.targetPath hs'.opened.paths,
          congrArg DownloadPaths.sourcePath hs'.opened.paths, hs'.opened.tempPath,
          hs'.opened.totalSize, hs'.opened.chunkSize, hs'.opened.checksumAlgorithm,
          hstate' ▸ hstate⟩
    rw [hs'.opened.totalSize] at hinsert
    rw [DownloadSession.accept, hloaded, ok_bind, DownloadSession.restore]
    exact hinsert
  have hresume : DownloadSession.resume request w₁ =
      (.ok (Session.resumed downloadSessionFormat request s'.checksumBackend
          { s'.manifest with verifiedChunks := sortedRecords s'.manifest.verifiedChunks }
          completed w₁.afterCall.afterCall.nowUnixNanos.1),
        w₁.afterCall.afterCall.nowUnixNanos.2) := by
    rw [DownloadSession.resume]
    simp only [hvalid, hhardware, hs'.opened.checksumBackend, hload, haccept]
  refine ⟨_, _, hresume, hs.ok.sameProgress (.of_insertAll hinsert) ?_ ?_⟩
  · exact (sortedRecords_perm _).trans hperm
  · exact hs'.opened.totalSize.trans hs.opened.totalSize.symm

/-- **Save, then resume, loses nothing**, in every reachable state of either
class that is not committed: resuming with the same request in a world that
still has the written manifest succeeds and makes the same progress. -/
theorem session_save_resume (hardware : Bool) :
    (∀ request s, (transferSystem hardware request).Reachable s →
      s.manifest.state ≠ .committed → ∀ (w w' : World) (s' : TransferSession) (u : Unit),
      s.save transferSessionFormat w = (.ok u, s', w') → ∀ w₁ : World, w₁.Quiet →
      w₁.crc32cHardwareAvailable = hardware →
      w₁.files s'.manifestPath = w'.files s'.manifestPath →
      ∃ r w₂, TransferSession.resume request w₁ = (.ok r, w₂) ∧ SameProgress s r) ∧
    (∀ request s, (downloadSystem hardware request).Reachable s →
      s.manifest.state ≠ .committed → ∀ (w w' : World) (s' : DownloadSession) (u : Unit),
      s.save downloadSessionFormat w = (.ok u, s', w') → ∀ w₁ : World, w₁.Quiet →
      w₁.crc32cHardwareAvailable = hardware →
      w₁.files s'.manifestPath = w'.files s'.manifestPath →
      ∃ r w₂, DownloadSession.resume request w₁ = (.ok r, w₂) ∧ SameProgress s r) := by
  refine ⟨fun request s h hstate w w' s' u hsave w₁ hquiet hhardware hfile => ?_,
    fun request s h hstate w w' s' u hsave w₁ hquiet hhardware hfile => ?_⟩
  · obtain ⟨s₀, hopens⟩ := h.exists_initial
    exact transfer_save_resume hopens.valid (transfer_sound h) hstate hsave hquiet hhardware hfile
  · obtain ⟨s₀, hopens⟩ := h.exists_initial
    exact download_save_resume hopens.valid (download_sound h) hstate hsave hquiet hhardware hfile

theorem session_save_resume_of_two_records :
    ∃ s' w' r w₂, (threeChunksAfter [recordZero 2, recordZero 0]).save transferSessionFormat
        corruptSecondByte = (.ok (), s', w') ∧
      TransferSession.resume threeChunks (.withFiles w'.files) = (.ok r, w₂) ∧
      SameProgress (threeChunksAfter [recordZero 2, recordZero 0]) r := by
  have hok : ((threeChunksAfter [recordZero 2, recordZero 0]).save transferSessionFormat
      corruptSecondByte).1.isOk = true := by decide +kernel
  rcases hsave : (threeChunksAfter [recordZero 2, recordZero 0]).save transferSessionFormat
    corruptSecondByte with ⟨e | _, s', w'⟩
  · rw [hsave] at hok
    cases hok
  · obtain ⟨r, w₂, hresume, hsame⟩ := (session_save_resume false).1 threeChunks _
      (threeChunks_reachable _) (by decide +kernel) _ _ _ _ hsave (.withFiles w'.files)
      (fun _ h => (List.not_mem_nil h).elim) rfl rfl
    exact ⟨s', w', r, w₂, rfl, hresume, hsame⟩

end GridFlux
